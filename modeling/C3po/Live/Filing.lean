import C3po.Live.Runs

/-! What the two stores hold of one session, in any life of the service.

A document is written after the checkpoint of the same fills, and fills are only ever
added to: the stored document of a session carries the first of its checkpoint's fills,
under the same rule.
-/

set_option autoImplicit false

namespace C3po.Live
open C3po.Library

/-- The fees of every fill are those of its own quantity and price. -/
def Costed (fills : List Fill) : Prop :=
  ∀ fill ∈ fills, fill.feesUsd = fill.quantity * fill.price * feeSide

/-- A document of a session, of the first of its fills. -/
structure Document.Of (document : Document) (state : EngineState) (day : Int) : Prop where
  config : document.config = state.config
  book : ∃ book, document.book = some book
  trades : ∃ earlier, earlier <+: state.fills ∧ document.trades = documentTrades state.config day earlier

def Own (documents : Dict Int Document) (state : EngineState) (day : Int) : Prop :=
  ∀ document, documents.get? day = some document → document.Of state day

theorem own_insert {document : Document} {state : EngineState} {day : Int} (own : document.Of state day)
    (documents : Dict Int Document) : Own (documents.insert day document) state day := by
  intro other found
  rw [Dict.get?_insert, if_pos rfl] at found
  exact Option.some.inj found ▸ own

/-- A state of a session, and what is stored of it. -/
structure Filed (documents : Dict Int Document) (state : EngineState) (day : Int) : Prop where
  keyed : state.Keyed
  ruled : state.config ≠ ""
  costed : Costed state.fills
  prior : state.prior = some day
  own : Own documents state day

section Documents
variable {zone : Zone} {engine : Engine} {now : Int} {asOf : Option Int} {config : String} {document : Document}

theorem stored_of_nonneg {trade : DocumentTrade} (fees : 0 ≤ trade.fill.feesUsd) : trade.stored = trade := by
  unfold DocumentTrade.stored
  rw [abs_of_nonneg fees]

theorem documentTrades_costed {fills : List Fill} (costed : Costed fills) (config : String) (day : Int)
    (positive : ∀ trade ∈ documentTrades config day fills, 0 < trade.fill.quantity ∧ 0 < trade.fill.price) :
    (documentTrades config day fills).map DocumentTrade.stored = documentTrades config day fills := by
  refine (List.map_congr_left fun trade member => ?_).trans (List.map_id _)
  obtain ⟨quantity, price⟩ := positive trade member
  obtain ⟨entry, entryIn, rfl⟩ := List.mem_map.mp member
  have fillIn : entry.1 ∈ fills := (List.mem_zipIdx' entryIn).2 ▸ List.getElem_mem _
  have fees : 0 ≤ entry.1.feesUsd := by
    rw [costed entry.1 fillIn]
    have fee : (0 : ℚ) ≤ feeSide := by norm_num [feeSide]
    exact mul_nonneg (mul_nonneg (pos_of_roundTo_pos quantity).le (pos_of_roundTo_pos price).le) fee
  exact stored_of_nonneg (roundTo_nonneg 2 fees)

theorem publish_ok (costed : Costed engine.state.fills)
    (ok : publish zone engine now asOf config = .ok document) :
    document = engine.document (asOf.getD now) config := by
  obtain ⟨stored, positive⟩ := validate_ok ok
  rw [stored]
  have trades := documentTrades_costed costed _ _ positive
  exact congrArg (fun trades => { engine.document (asOf.getD now) config with trades := trades }) trades

theorem document_own {state : EngineState} (same : engine.state = state)
    (moment : Int) (given : documentConfig state config = state.config) :
    (engine.document moment config).Of state engine.day := by
  subst same
  refine ⟨given, ⟨_, rfl⟩, engine.state.fills, List.prefix_refl _, ?_⟩
  unfold Engine.document
  simp only [given]

theorem documentConfig_default {state : EngineState} (ruled : state.config ≠ "") :
    documentConfig state "" = state.config := by
  unfold documentConfig labelOr
  simp [ruled]

theorem documentConfig_given {state : EngineState} (ruled : config ≠ "") :
    documentConfig state config = config := by
  unfold documentConfig
  simp [ruled]

theorem priorConfig_own {documents : Dict Int Document} {state after : EngineState} {day : Int}
    (own : Own documents state day) (ruled : state.config ≠ "") (same : after.config = state.config) :
    priorConfig (documents.get? day) after = state.config := by
  unfold priorConfig
  cases found : documents.get? day with
  | none => exact same
  | some document =>
    have config := (own document found).config
    simp [Option.filter_some, config, ruled]

end Documents

section Sessions
variable {zone : Zone}

/-- What an engine of a session adds to its fills, and to nothing else that is filed. -/
structure Adds (first engine : Engine) : Prop where
  keyed : engine.state.Keyed
  costed : Costed engine.state.fills
  config : engine.state.config = first.state.config
  session : engine.state.session = first.state.session
  lastSession : engine.state.lastSession = first.state.lastSession
  day : engine.day = first.day
  fills : first.state.fills <+: engine.state.fills

theorem Costed.snoc {fills : List Fill} {fill : Fill} (costed : Costed fills)
    (own : fill.feesUsd = fill.quantity * fill.price * feeSide) : Costed (fills ++ [fill]) := by
  intro other member
  rcases List.mem_append.mp member with old | new
  · exact costed other old
  · rw [List.mem_singleton.mp new]
    exact own

theorem adds_steady (first : Engine) : Engine.Steady (Adds first) where
  keyed adds := adds.keyed
  frame frame adds := by
    refine ⟨Engine.keyed_frame frame adds.keyed, ?_, frame.config.trans adds.config,
      frame.session.trans adds.session, frame.lastSession.trans adds.lastSession,
      frame.day.trans adds.day, ?_⟩
    · rw [frame.fills]
      exact adds.costed
    · rw [frame.fills]
      exact adds.fills
  mark adds _ _ moment :=
    ⟨Engine.keyed_mark adds.keyed _ moment, adds.costed, adds.config, adds.session, adds.lastSession, adds.day,
      adds.fills⟩
  sell adds _ _ reason moment :=
    ⟨Engine.keyed_sell adds.keyed _ _ _ _ _, adds.costed.snoc rfl, adds.config, adds.session,
      adds.lastSession, adds.day, adds.fills.trans (List.prefix_append ..)⟩

theorem Adds.buy {first engine : Engine} (adds : Adds first engine) (cross : Engine.Cross)
    (purchase : Engine.Purchase) : Adds first (engine.buy cross purchase) :=
  ⟨Engine.keyed_buy adds.keyed _ _, adds.costed.snoc rfl, adds.config, adds.session, adds.lastSession,
    adds.day, adds.fills.trans (List.prefix_append ..)⟩

theorem act_adds {engine : Engine} {act : Act} (during : act.During) (keyed : engine.state.Keyed)
    (costed : Costed engine.state.fills) : Adds engine (engine.act zone act) := by
  have start : Adds engine engine := ⟨keyed, costed, rfl, rfl, rfl, rfl, List.prefix_refl _⟩
  have selected : ∀ {after : Engine}, Selected engine after → after.state.lastSession = engine.state.lastSession →
      Adds engine after := by
    intro after same lastSession
    refine ⟨fun symbol position held => keyed symbol position (same.positions ▸ held), ?_, same.config,
      same.session, lastSession, same.day, ?_⟩
    · rw [same.fills]
      exact costed
    · exact same.fills ▸ List.prefix_refl _
  cases act with
  | start day names => exact during.elim
  | close => exact during.elim
  | candidates opening =>
    refine selected (setCandidates_selected engine opening) ?_
    unfold Engine.act Engine.setCandidates
    simp only
    split <;> rfl
  | adopt tapes =>
    refine selected (adoptOpening_selected zone engine tapes) ?_
    unfold Engine.act Engine.adoptOpening Engine.setCandidates
    rfl
  | step input =>
    exact (adds_steady engine).step input (fun entry _ adds _ _ _ => adds.buy entry.2.1 entry.2.2) start
  | fast pass => exact (adds_steady engine).fastExits pass start

theorem Filed.adds {documents : Dict Int Document} {first engine : Engine}
    (filed : Filed documents first.state first.day) (adds : Adds first engine) :
    Filed documents engine.state engine.day := by
  refine ⟨adds.keyed, adds.config ▸ filed.ruled, adds.costed, ?_, fun document found => ?_⟩
  · unfold EngineState.prior
    rw [adds.session, adds.lastSession, adds.day]
    exact filed.prior
  · rw [adds.day] at found ⊢
    obtain ⟨config, book, earlier, front, trades⟩ := filed.own document found
    refine ⟨config.trans adds.config.symm, book, earlier, front.trans adds.fills, ?_⟩
    rw [adds.config]
    exact trades

theorem Filed.closed {documents : Dict Int Document} {before after : Engine}
    (filed : Filed documents before.state before.day) (closed : Closed before after) :
    Filed documents after.state after.day := by
  refine ⟨keyed_older filed.keyed closed.positions, closed.config ▸ filed.ruled, ?_, ?_, fun document found => ?_⟩
  · rw [closed.fills]
    exact filed.costed
  · unfold EngineState.prior
    rw [closed.session, closed.lastSession, closed.day]
    rfl
  · rw [closed.day] at found ⊢
    obtain ⟨config, book, trades⟩ := filed.own document found
    rw [← closed.config] at config
    rw [← closed.config, ← closed.fills] at trades
    exact ⟨config, book, trades⟩

theorem of_closedOn (zone : Zone) {state : EngineState} {prior : Int} (previous : state.prior = some prior)
    (document : Document) : document.Of (state.closedOn zone prior) prior ↔ document.Of state prior := by
  obtain ⟨fills, config, _, _⟩ := closedOn_frame zone previous
  constructor
  · rintro ⟨label, book, trades⟩
    rw [config] at label
    rw [fills, config] at trades
    exact ⟨label, book, trades⟩
  · rintro ⟨label, book, trades⟩
    rw [← config] at label
    rw [← fills, ← config] at trades
    exact ⟨label, book, trades⟩

theorem Filed.closedOn (zone : Zone) {documents : Dict Int Document} {state : EngineState} {prior : Int}
    (filed : Filed documents state prior) : Filed documents (state.closedOn zone prior) prior := by
  obtain ⟨fills, config, session, lastSession⟩ := closedOn_frame zone filed.prior
  refine ⟨?_, config ▸ filed.ruled, ?_, ?_, fun document found => ?_⟩
  · rcases prior_session filed.prior with unclosed | ⟨none_, _⟩
    · exact keyed_older filed.keyed (closedOn_open unclosed).1
    · rw [closedOn_closed (by simp [none_])]
      exact filed.keyed
  · rw [fills]
    exact filed.costed
  · unfold EngineState.prior
    rw [session, lastSession]
    rfl
  · exact (of_closedOn zone filed.prior document).mpr (filed.own document found)

end Sessions

section Writes
variable {zone : Zone} {documents : Dict Int Document} {state : EngineState} {prior : Int} {disk : Disk}

/-- A write of the reconciliation of a session: its close, or its own document. -/
def Reconciles (zone : Zone) (state : EngineState) (prior : Int) : Write → Prop
  | .checkpoint saved => saved = saveState (state.closedOn zone prior)
  | .document document => document.day = prior ∧ document.Of state prior

/-- A disk in the middle of the reconciliation of a session. -/
structure Midway (zone : Zone) (state : EngineState) (prior : Int) (disk : Disk) : Prop where
  loaded : ∃ saved, disk.saved = some saved ∧
    (loadState saved = state ∨ loadState saved = state.closedOn zone prior)
  filed : Filed disk.documents state prior

theorem Filed.post (filed : Filed documents state prior) {document : Document}
    (own : document.Of state prior) : Filed (documents.insert prior document) state prior :=
  ⟨filed.keyed, filed.ruled, filed.costed, filed.prior, own_insert own documents⟩

theorem Midway.write (midway : Midway zone state prior disk) {write : Write}
    (reconciles : Reconciles zone state prior write) : Midway zone state prior (disk.write write) := by
  cases write with
  | checkpoint saved =>
    refine ⟨⟨saved, rfl, .inr ?_⟩, midway.filed⟩
    have closed := midway.filed.closedOn zone
    rw [show saved = saveState (state.closedOn zone prior) from reconciles]
    exact loadState_saved closed.keyed closed.ruled
  | document document =>
    obtain ⟨rfl, own⟩ := reconciles
    exact ⟨midway.loaded, midway.filed.post own⟩

theorem post_own (filed : Filed documents state prior) {now : Int} {document : Document}
    (ok : publish zone (priorEngine zone state prior) now (some (zone.instant prior sessionClose))
      (priorConfig (documents.get? prior) (state.closedOn zone prior)) = .ok document) :
    document.day = prior ∧ document.Of state prior := by
  have config := (closedOn_frame zone filed.prior).2.1
  have closed := filed.closedOn zone
  have day := priorEngine_day zone state prior
  have posted := @publish_ok zone (priorEngine zone state prior) now _ _ _ closed.costed ok
  rw [priorConfig_own filed.own filed.ruled config] at posted
  have own := @document_own (priorEngine zone state prior) state.config (state.closedOn zone prior) rfl
    (zone.instant prior sessionClose) (by rw [config, documentConfig_given filed.ruled])
  rw [day] at own
  exact ⟨posted ▸ day, posted ▸ (of_closedOn zone filed.prior _).mp own⟩

theorem reconcile_writes (filed : Filed documents state prior) (day now : Int) :
    ∀ write ∈ (reconcilePrevious zone documents state day now).writes, Reconciles zone state prior write := by
  rcases @reconcile_cases zone documents state day now with ⟨_, none_, _⟩ | ⟨own, posts, previous, _, _, whole, posted⟩
  · rw [none_]
    exact fun _ member => nomatch member
  · obtain rfl : prior = own := Option.some.inj (filed.prior.symm.trans previous)
    rw [whole]
    intro write member
    rcases List.mem_append.mp member with saves | posts
    · unfold savesOn at saves
      split at saves
      · rw [List.mem_singleton.mp saves]
        exact rfl
      · cases saves
    · obtain ⟨post, postIn, rfl⟩ := List.mem_map.mp posts
      exact post_own filed (posted post postIn)

theorem reconciles_closedOn (previous : state.prior = some prior) {write : Write}
    (reconciles : Reconciles zone (state.closedOn zone prior) prior write) :
    Reconciles zone state prior write := by
  obtain ⟨_, _, session, _⟩ := closedOn_frame zone previous
  cases write with
  | checkpoint saved =>
    have again : (state.closedOn zone prior).closedOn zone prior = state.closedOn zone prior :=
      closedOn_closed (by simp [session])
    unfold Reconciles at reconciles ⊢
    rw [reconciles, again]
  | document document => exact ⟨reconciles.1, (of_closedOn zone previous document).mp reconciles.2⟩

theorem Midway.load (midway : Midway zone state prior disk) (seed : EngineState) :
    disk.load seed = state ∨ disk.load seed = state.closedOn zone prior := by
  obtain ⟨saved, stored, loaded⟩ := midway.loaded
  unfold Disk.load
  rw [stored]
  exact loaded

theorem Midway.writes (midway : Midway zone state prior disk) (seed : EngineState) (day now : Int) :
    ∀ write ∈ (disk.reconciled zone seed day now).writes, Reconciles zone state prior write := by
  unfold Disk.reconciled
  rcases midway.load seed with same | same
  · rw [same]
    exact reconcile_writes midway.filed day now
  · rw [same]
    exact fun write member => reconciles_closedOn midway.filed.prior
      (reconcile_writes (midway.filed.closedOn zone) day now write member)

theorem Midway.filed_load (midway : Midway zone state prior disk) (seed : EngineState) :
    Filed disk.documents (disk.load seed) prior := by
  rcases midway.load seed with same | same
  · rw [same]
    exact midway.filed
  · rw [same]
    exact midway.filed.closedOn zone

theorem Midway.reconciled (midway : Midway zone state prior disk) (seed : EngineState) (day now : Int)
    (writes : ℕ) :
    Midway zone state prior (((disk.reconciled zone seed day now).writes.take writes).foldl Disk.write disk) :=
  foldl_keeps (Midway zone state prior) _ (fun write member _ midway_ =>
    midway_.write (midway.writes seed day now write (List.mem_of_mem_take member))) midway

end Writes

section Lives
variable {zone : Zone} {seed : EngineState} {documents : Dict Int Document} {service : Service}

/-- No document is of a later session. -/
def Bounded (prior : Int) (disk : Disk) : Prop :=
  ∀ day document, disk.documents.get? day = some document → day ≤ prior

theorem Bounded.write {prior : Int} {disk : Disk} (bounded : Bounded prior disk) {write : Write}
    (own : ∀ document, write = .document document → document.day = prior) : Bounded prior (disk.write write) := by
  cases write with
  | checkpoint saved => exact bounded
  | document document =>
    intro day other found
    simp only [Disk.write, Dict.get?_insert] at found
    split at found
    · rename_i same
      rw [same, own document rfl]
    · exact bounded day other found

/-- What is stored is of one session, the last there is. -/
structure Disk.Tidy (seed : EngineState) (disk : Disk) : Prop where
  keyed : (disk.load seed).Keyed
  saved : ∀ saved, disk.saved = some saved → ∃ day, Filed disk.documents (loadState saved) day
  bounded : ∀ day document, disk.documents.get? day = some document →
    ∃ prior, (disk.load seed).prior = some prior ∧ day ≤ prior

/-- And what the process that runs will store is of its own. -/
structure Service.Tidy (seed : EngineState) (service : Service) : Prop where
  disk : service.disk.Tidy seed
  running : ∀ engine ledger, service.running = some (engine, ledger) →
    Filed service.disk.documents engine.state engine.day ∧
      ∀ prior, (service.disk.load seed).prior = some prior → prior ≤ engine.day

theorem Disk.load_saved {disk : Disk} {saved : SavedState} (stored : disk.saved = some saved)
    (seed : EngineState) : disk.load seed = loadState saved := by
  unfold Disk.load
  rw [stored]
  rfl

theorem Disk.load_unsaved {disk : Disk} (unsaved : disk.saved = none) (seed : EngineState) :
    disk.load seed = seed := by
  unfold Disk.load
  rw [unsaved]
  rfl

theorem Disk.Tidy.below {disk : Disk} (tidy : disk.Tidy seed) {prior : Int}
    (previous : (disk.load seed).prior = some prior) : Bounded prior disk := by
  intro day document found
  obtain ⟨other, own, below⟩ := tidy.bounded day document found
  rw [previous] at own
  exact Option.some.inj own ▸ below

theorem Bounded.writes {prior : Int} {disk : Disk} (bounded : Bounded prior disk) (writes : List Write)
    (days : ∀ write ∈ writes, ∀ document, write = .document document → document.day = prior) :
    Bounded prior (writes.foldl Disk.write disk) :=
  foldl_keeps (Bounded prior) writes (fun write member _ below => below.write (days write member)) bounded

theorem Disk.Tidy.of_bounded {disk : Disk} {prior : Int} (keyed : (disk.load seed).Keyed)
    (saved : ∀ saved, disk.saved = some saved → ∃ day, Filed disk.documents (loadState saved) day)
    (previous : (disk.load seed).prior = some prior) (bounded : Bounded prior disk) : disk.Tidy seed :=
  ⟨keyed, saved, fun day document found => ⟨prior, previous, bounded day document found⟩⟩

theorem Disk.Tidy.unsaved {disk : Disk} (fresh : seed.session = none ∧ seed.fills = []) (tidy : disk.Tidy seed)
    (unsaved : disk.saved = none) (day now : Int) (writes : ℕ) :
    (((disk.reconciled zone seed day now).writes.take writes).foldl Disk.write disk).Tidy seed ∧
      (((disk.reconciled zone seed day now).writes.take writes).foldl Disk.write disk).saved = none := by
  have load := Disk.load_unsaved unsaved seed
  have keyed := load ▸ tidy.keyed
  unfold Disk.reconciled
  rw [load]
  rcases @reconcile_cases zone disk.documents seed day now with
    ⟨_, none_, _⟩ | ⟨prior, posts, previous, _, _, whole, posted⟩
  · rw [none_, List.take_nil]
    exact ⟨tidy, unsaved⟩
  · have noSave : savesOn zone seed prior = [] := if_neg (by simp [fresh.1])
    rw [whole, noSave, List.nil_append, ← List.map_take]
    have still : (((posts.take writes).map Write.document).foldl Disk.write disk).saved = none := by
      rw [load_posts, unsaved]
    have same := Disk.load_unsaved still seed
    refine ⟨.of_bounded (same.symm ▸ keyed) (fun saved never => absurd (never.symm.trans still) (by simp))
      (same.symm ▸ previous) ((tidy.below (load.symm ▸ previous)).writes _ fun write member document written => ?_),
      still⟩
    obtain ⟨post, postIn, rfl⟩ := List.mem_map.mp member
    have costed : Costed (priorEngine zone seed prior).state.fills := by
      have fills := (closedOn_frame zone previous).1
      unfold EngineState.closedOn at fills
      rw [fills, fresh.2]
      exact fun _ never => nomatch never
    have published := publish_ok costed (posted post (List.mem_of_mem_take postIn))
    cases written
    rw [published]
    exact priorEngine_day zone seed prior

theorem Disk.Tidy.reconciled {disk : Disk} (fresh : seed.session = none ∧ seed.fills = [])
    (tidy : disk.Tidy seed) (day now : Int) (writes : ℕ) {after : Disk} (afterwards : after =
      ((disk.reconciled zone seed day now).writes.take writes).foldl Disk.write disk) :
    after.Tidy seed ∧ (after.load seed).prior = (disk.load seed).prior := by
  subst afterwards
  cases stored : disk.saved with
  | none =>
    obtain ⟨after, still⟩ := @Disk.Tidy.unsaved zone seed disk fresh tidy stored day now writes
    rw [Disk.load_unsaved still, Disk.load_unsaved stored]
    exact ⟨after, rfl⟩
  | some saved =>
    obtain ⟨prior, filed⟩ := tidy.saved saved stored
    have load := Disk.load_saved stored seed
    have start : Midway zone (loadState saved) prior disk := ⟨⟨saved, stored, .inl rfl⟩, filed⟩
    have midway := start.reconciled seed day now writes
    have filedAfter := midway.filed_load seed
    rw [load, filed.prior]
    refine ⟨.of_bounded filedAfter.keyed (fun other found => ⟨prior, ?_⟩) filedAfter.prior
      ((tidy.below (load ▸ filed.prior)).writes _ fun write member document same => ?_), filedAfter.prior⟩
    · exact Disk.load_saved found seed ▸ filedAfter
    · have reconciles := start.writes seed day now write (List.mem_of_mem_take member)
      rw [same] at reconciles
      exact reconciles.1

theorem Service.Tidy.stopped (fresh : seed.session = none ∧ seed.fills = []) (tidy : service.Tidy seed)
    (day now : Int) (writes : ℕ) : (service.stopped zone seed day now writes).Tidy seed :=
  ⟨(tidy.disk.reconciled fresh day now writes rfl).1, fun _ _ never => nomatch never⟩

theorem reconciled_own {disk : Disk} {day : Int} (session : (disk.load seed).session = some day) (now : Int) :
    (disk.reconciled zone seed day now).state = disk.load seed ∧
      (disk.reconciled zone seed day now).writes = [] := by
  unfold Disk.reconciled
  rcases @reconcile_cases zone disk.documents (disk.load seed) day now with
    ⟨same, none_, _⟩ | ⟨prior, _, previous, apart, _, _, _⟩
  · exact ⟨same, none_⟩
  · rcases prior_session previous with own | ⟨none_, _⟩
    · exact absurd (Option.some.inj (own.symm.trans session)) apart
    · exact absurd (none_.symm.trans session) (by simp)

theorem reconciled_resumed {disk : Disk} {day now : Int}
    (resumed : (disk.reconciled zone seed day now).state.session = some day) :
    (disk.load seed).session = some day := by
  unfold Disk.reconciled at resumed
  rcases @reconcile_cases zone disk.documents (disk.load seed) day now with
    ⟨same, _, _⟩ | ⟨prior, _, previous, _, closed, _, _⟩
  · rw [same] at resumed
    exact resumed
  · rw [closed, (closedOn_frame zone previous).2.2.1] at resumed
    cases resumed

theorem reconciled_keyed {disk : Disk} (keyed : (disk.load seed).Keyed) (day now : Int) :
    (disk.reconciled zone seed day now).state.Keyed := by
  unfold Disk.reconciled
  rcases @reconcile_cases zone disk.documents (disk.load seed) day now with
    ⟨same, _, _⟩ | ⟨prior, _, previous, _, closed, _, _⟩
  · rw [same]
    exact keyed
  · rw [closed]
    rcases prior_session previous with unclosed | ⟨none_, _⟩
    · exact keyed_older keyed (closedOn_open unclosed).1
    · rw [closedOn_closed (by simp [none_])]
      exact keyed

theorem start_filed {documents : Dict Int Document} {state : EngineState} (keyed : state.Keyed) {day : Int}
    (fresh : state.session ≠ some day) (names : List Member)
    (unpublished : documents.get? day = none) : Filed documents (Engine.start state day names).state day := by
  have opened : (Engine.start state day names).state = state.openSession day := by
    unfold Engine.start
    simp only [fresh, if_false]
  rw [opened]
  have ruled : (state.openSession day).config ≠ "" := show currentConfig ≠ "" by decide
  refine ⟨keyed, ruled, (fun _ never => nomatch never), rfl, fun document found => ?_⟩
  rw [unpublished] at found
  cases found

theorem Service.Tidy.booted (fresh : seed.session = none ∧ seed.fills = []) (tidy : service.Tidy seed)
    {day : Int} (due : Due (service.disk.load seed) day) (now : Int) (names : List Member) :
    (service.booted zone seed day now names).Tidy seed := by
  obtain ⟨disk, prior⟩ := @Disk.Tidy.reconciled zone seed service.disk fresh tidy.disk day now
    (service.disk.reconciled zone seed day now).writes.length
    ((service.disk.reconciled zone seed day now).writes.foldl Disk.write service.disk) (by rw [List.take_length])
  refine ⟨disk, fun engine ledger running => ?_⟩
  unfold Service.booted at running ⊢
  simp only [Option.some.injEq, Prod.mk.injEq] at running ⊢
  obtain ⟨rfl, rfl⟩ := running
  have dayOf : (Engine.start (service.disk.reconciled zone seed day now).state day names).day = day := rfl
  rw [dayOf, prior]
  by_cases session : (service.disk.load seed).session = some day
  · obtain ⟨state, none_⟩ := @reconciled_own zone seed service.disk day session now
    have previous : (service.disk.load seed).prior = some day := by
      unfold EngineState.prior
      rw [session]
      rfl
    rw [state, none_]
    refine ⟨?_, fun other own => ?_⟩
    · have resumed : (Engine.start (service.disk.load seed) day names).state = service.disk.load seed := by
        unfold Engine.start
        simp only [session, if_true]
      rw [resumed]
      cases stored : service.disk.saved with
      | none =>
        rw [Disk.load_unsaved stored, fresh.1] at session
        cases session
      | some saved =>
        have load := Disk.load_saved stored seed
        obtain ⟨own, filed⟩ := tidy.disk.saved saved stored
        rw [← load] at filed
        obtain rfl := Option.some.inj (previous.symm.trans filed.prior)
        exact filed
    · rw [previous] at own
      exact (Option.some.inj own).ge
  · have before := due.resolve_left session
    refine ⟨start_filed (reconciled_keyed tidy.disk.keyed day now)
      (fun resumed => session (reconciled_resumed resumed)) names ?_, fun other own => (before other own).le⟩
    cases found : ((service.disk.reconciled zone seed day now).writes.foldl Disk.write
        service.disk).documents.get? day with
    | none => rfl
    | some document =>
      obtain ⟨other, own, below⟩ := disk.bounded day document found
      have earlier := before other (prior.symm.trans own)
      omega

theorem Service.Tidy.saved (tidy : service.Tidy seed) {engine : Engine} {ledger : Ledger}
    (running : service.running = some (engine, ledger)) : (service.saved engine ledger).Tidy seed := by
  obtain ⟨filed, below⟩ := tidy.running engine ledger running
  have load : (service.saved engine ledger).disk.load seed = engine.state :=
    loadState_saved filed.keyed filed.ruled
  have own := load.symm ▸ filed
  refine ⟨.of_bounded own.keyed (fun saved same => ⟨engine.day, ?_⟩) own.prior ?_, fun other after same => ?_⟩
  · cases same
    rw [loadState_saved filed.keyed filed.ruled]
    exact filed
  · intro day document found
    obtain ⟨prior, previous, early⟩ := tidy.disk.bounded day document found
    exact early.trans (below prior previous)
  · rw [show (service.saved engine ledger).running = service.running from rfl, running] at same
    cases same
    refine ⟨filed, fun prior previous => ?_⟩
    rw [own.prior] at previous
    exact (Option.some.inj previous).ge

theorem Service.Tidy.committed (tidy : service.Tidy seed) {engine : Engine} {ledger : Ledger}
    (running : service.running = some (engine, ledger)) (now : Int) :
    ((service.saved engine ledger).published zone engine now).Tidy seed := by
  have saved := tidy.saved running
  obtain ⟨filed, below⟩ := tidy.running engine ledger running
  have load : (service.saved engine ledger).disk.load seed = engine.state :=
    loadState_saved filed.keyed filed.ruled
  unfold Service.published
  split
  · rename_i document posted
    have same := publish_ok filed.costed posted
    have own := @document_own engine "" engine.state rfl now (documentConfig_default filed.ruled)
    have day : document.day = engine.day := by
      rw [same]
      rfl
    have published : Filed (service.disk.documents.insert document.day document) engine.state engine.day := by
      rw [day]
      exact filed.post (same ▸ own)
    refine ⟨⟨saved.disk.keyed, fun other found => ⟨engine.day, ?_⟩, fun other before found => ?_⟩,
      fun other after running_ => ?_⟩
    · cases found
      rw [loadState_saved filed.keyed filed.ruled]
      exact published
    · simp only [Disk.write, Dict.get?_insert] at found
      split at found
      · rename_i same
        exact ⟨engine.day, load.symm ▸ filed.prior, (same.trans day).le⟩
      · exact saved.disk.bounded other before found
    · obtain ⟨_, later⟩ := saved.running other after running_
      rw [show (service.saved engine ledger).running = service.running from rfl, running] at running_
      cases running_
      exact ⟨published, later⟩
  · exact saved

theorem Service.Reached.tidy (seeded : seed.Seeded) (fresh : seed.session = none ∧ seed.fills = [])
    (lab : ∀ day document, documents.get? day = some document → ∃ prior, seed.prior = some prior ∧ day ≤ prior)
    (reached : Service.Reached zone seed documents service) : service.Tidy seed := by
  induction reached with
  | installed => exact ⟨⟨seeded.keyed, (fun _ never => nomatch never), lab⟩, fun _ _ never => nomatch never⟩
  | stopped day now writes _ _ ih => exact ih.stopped fresh day now writes
  | booted day now names _ due ih => exact ih.booted fresh due now names
  | @ran service engine ledger act _ running session during ih =>
    obtain ⟨filed, below⟩ := ih.running engine ledger running
    refine ⟨ih.disk, fun other after same => ?_⟩
    cases same
    have adds := @act_adds zone engine act during filed.keyed filed.costed
    exact ⟨filed.adds adds, fun prior previous => adds.day.symm ▸ below prior previous⟩
  | @closed service engine ledger _ running session ih =>
    obtain ⟨filed, below⟩ := ih.running engine ledger running
    refine ⟨ih.disk, fun other after same => ?_⟩
    cases same
    have closed := closeSession_closed zone engine
    exact ⟨filed.closed closed, fun prior previous => closed.day.symm ▸ below prior previous⟩
  | saved _ running ih => exact ih.saved running
  | committed now _ running ih => exact ih.committed running now

end Lives
end C3po.Live
