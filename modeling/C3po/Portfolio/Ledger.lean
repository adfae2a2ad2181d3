import C3po.Library.Transaction
import C3po.Portfolio.Timeline

/-! The stored portfolio ledger: what clients may write to it and cancel.

Each request runs alone, under the ledger's lock. A write is checked on a candidate
with a provisional sequence; the store then gives the event its own. A cancelled event
stays in the history and leaves the replay.
-/

set_option autoImplicit false

namespace C3po.Portfolio
open C3po.Library

/-- A recorded movement, with the identifier its client chose. -/
structure Entry where
  requestId : String
  event : Event
  voidedAt : Option Int := none
  deriving DecidableEq, Repr

abbrev Ledger := List Entry

/-- The store in memory, and the table whose sequence is a serial. -/
inductive Backend where
  | memory
  | table
  deriving DecidableEq, Repr

inductive LedgerRefusal where
  | refused (refusal : Refusal)
  | lookup (text : String)
  deriving DecidableEq, Repr

def active (ledger : Ledger) : List Entry := ledger.filter fun entry => entry.voidedAt.isNone

def eventsIn (entries : List Entry) : List Event := entries.map Entry.event

namespace Backend

/-- The movements not cancelled: as stored in memory, by date and sequence from the table. -/
def listPortfolioEvents : Backend → Ledger → List Entry
  | memory, ledger => active ledger
  | table, ledger => stableSort (fun entry => entry.event.key) (active ledger)

def lastSequence (entries : List Entry) : Int :=
  (entries.map fun entry => entry.event.sequence).foldr max 0

/-- The sequence the store gives; a serial may have skipped some that were never committed. -/
def nextSequence (backend : Backend) (ledger : Ledger) (skipped : ℕ) : Int :=
  match backend with
  | memory => ledger.length + 1
  | table => lastSequence ledger + 1 + skipped

end Backend

def samePayload (stored asked : Event) : Prop :=
  stored.symbol = asked.symbol ∧ stored.market = asked.market ∧ stored.kind = asked.kind ∧
    stored.day = asked.day ∧ stored.quantity = asked.quantity ∧ stored.total = asked.total ∧
      stored.fees = asked.fees ∧ stored.splitDenominator = asked.splitDenominator

instance (stored asked : Event) : Decidable (samePayload stored asked) := by
  unfold samePayload
  infer_instance

def Event.numbered (event : Event) (sequence : Int) : Event := { event with sequence := sequence }

/-- Whether a write is new; a retry of the same movement is not. -/
def validate (existing : List Entry) (requestId : String) (event : Event) : Except LedgerRefusal Bool :=
  if existing.any fun entry => entry.event.symbol = event.symbol ∧ entry.event.market ≠ event.market then
    .error (.refused (.value "Ativo com mercado divergente do histórico"))
  else
    match existing.find? fun entry => entry.requestId = requestId with
    | some matching =>
        if samePayload matching.event event then .ok false
        else .error (.refused (.value "Identificador já usado por outra movimentação"))
    | none =>
        match replay (eventsIn existing ++ [event.numbered (Backend.lastSequence existing + 1)]) with
        | .ok _ => .ok true
        | .error refusal => .error (.refused refusal)

abbrev Request (A : Type) := Transaction Ledger LedgerRefusal A

def writePortfolioEvent (backend : Backend) (skipped : ℕ) (requestId : String) (event : Event) : Request Unit := do
  let ledger ← Transaction.read
  let isNew ← Transaction.check (validate (backend.listPortfolioEvents ledger) requestId event)
  if isNew then
    if ledger.any fun entry => entry.requestId = requestId then
      Transaction.raise (.refused (.value "Movimentação já cancelada; use novo identificador"))
    else
      Transaction.write
        (ledger ++ [{ requestId := requestId, event := event.numbered (backend.nextSequence ledger skipped) }])
  else pure ()

/-- In memory a repeated cancellation moves the instant of the first; the table keeps it. -/
def Backend.void (backend : Backend) (requestId : String) (now : Int) (entry : Entry) : Entry :=
  if entry.requestId = requestId ∧ (backend = .table → entry.voidedAt = none) then
    { entry with voidedAt := some now }
  else entry

def voidPortfolioEvent (backend : Backend) (requestId : String) (now : Int) : Request Unit := do
  let ledger ← Transaction.read
  if ledger.any fun entry => entry.requestId = requestId then
    let remaining := (backend.listPortfolioEvents ledger).filter fun entry => entry.requestId ≠ requestId
    match replay (eventsIn remaining) with
    | .ok _ => Transaction.write (ledger.map (backend.void requestId now))
    | .error refusal => Transaction.raise (.refused refusal)
  else Transaction.raise (.lookup "Movimentação inexistente")

/-- What a client may ask. -/
inductive Asked where
  | write (requestId : String) (event : Event) (skipped : ℕ)
  | void (requestId : String) (now : Int)

def serve (backend : Backend) : Asked → Request Unit
  | .write requestId event skipped => writePortfolioEvent backend skipped requestId event
  | .void requestId now => voidPortfolioEvent backend requestId now

/-- The ledger after the requests, in the order the lock was taken. -/
def served (backend : Backend) (requests : List Asked) : Ledger :=
  requests.foldl (fun ledger asked => (serve backend asked ledger).2) []

section Replay

theorem replay_eq_of_perm {events others : List Event} (same : events.Perm others)
    (numbered : (events.map Event.sequence).Nodup) : replay events = replay others := by
  have distinct : (events.map Event.key).Nodup := by
    refine List.Nodup.of_map (fun key : Int ×ₗ Int => (ofLex key).2) ?_
    rw [List.map_map]
    exact numbered
  unfold replay ordered
  rw [stableSort_eq_of_perm same distinct]

theorem recordOn_numbered (holdings : Holdings) (event : Event) (sequence : Int) :
    recordOn holdings (event.numbered sequence) = recordOn holdings event := rfl

def renumbered (event : Event) (first second : Int) (other : Event) : Event :=
  if other = event.numbered first then event.numbered second else other

theorem replay_numbered {events : List Event} {event : Event} {first second : Int}
    (firstAfter : ∀ other ∈ events, other.sequence < first)
    (secondAfter : ∀ other ∈ events, other.sequence < second) :
    replay (events ++ [event.numbered second]) = replay (events ++ [event.numbered first]) := by
  have own : renumbered event first second (event.numbered first) = event.numbered second := if_pos rfl
  have kept : ∀ other ∈ events, renumbered event first second other = other := by
    intro other member
    refine if_neg fun same => ?_
    have before := firstAfter other member
    rw [same] at before
    exact lt_irrefl _ before
  have image : events ++ [event.numbered second] =
      (events ++ [event.numbered first]).map (renumbered event first second) := by
    rw [List.map_append, List.map_congr_left kept, List.map_id', List.map_cons, own]
    rfl
  have order : ∀ a ∈ events ++ [event.numbered first], ∀ b ∈ events ++ [event.numbered first],
      a.key ≤ b.key ↔ (renumbered event first second a).key ≤ (renumbered event first second b).key := by
    intro a aIn b bIn
    rcases List.mem_append.mp aIn with aOld | aNew <;> rcases List.mem_append.mp bIn with bOld | bNew
    · rw [kept a aOld, kept b bOld]
    · have one := firstAfter a aOld
      have other := secondAfter a aOld
      rw [kept a aOld, List.mem_singleton.mp bNew, own]
      simp only [Event.key, Event.numbered, Prod.Lex.toLex_le_toLex]
      omega
    · have one := firstAfter b bOld
      have other := secondAfter b bOld
      rw [kept b bOld, List.mem_singleton.mp aNew, own]
      simp only [Event.key, Event.numbered, Prod.Lex.toLex_le_toLex]
      omega
    · rw [List.mem_singleton.mp aNew, List.mem_singleton.mp bNew]
      simp
  have recorded : ∀ (holdings : Holdings) (other : Event),
      recordOn holdings (renumbered event first second other) = recordOn holdings other := by
    intro holdings other
    unfold renumbered
    split
    · rename_i same
      rw [same, recordOn_numbered, recordOn_numbered]
    · rfl
  unfold replay ordered
  rw [image, stableSort_image order, List.foldlM_map]
  simp only [Option.any_none, Bool.false_eq_true, if_false, recorded]

end Replay

section Calls
variable {backend : Backend} {ledger : Ledger} {requestId : String} {event : Event} {skipped : ℕ} {now : Int}

theorem write_eq : writePortfolioEvent backend skipped requestId event ledger =
    match validate (backend.listPortfolioEvents ledger) requestId event with
    | .error refusal => (.error refusal, ledger)
    | .ok false => (.ok (), ledger)
    | .ok true =>
        if ledger.any fun entry => entry.requestId = requestId then
          (.error (.refused (.value "Movimentação já cancelada; use novo identificador")), ledger)
        else (.ok (), ledger ++
          [{ requestId := requestId, event := event.numbered (backend.nextSequence ledger skipped) }]) := by
  cases validated : validate (backend.listPortfolioEvents ledger) requestId event with
  | error refusal =>
    unfold writePortfolioEvent
    simp only [bind, Transaction.read, Transaction.check, validated]
  | ok isNew =>
    unfold writePortfolioEvent
    simp only [bind, Transaction.read, Transaction.check, validated]
    cases isNew with
    | false => rfl
    | true =>
      simp only [if_true]
      split <;> rfl

theorem void_eq : voidPortfolioEvent backend requestId now ledger =
    if ledger.any fun entry => entry.requestId = requestId then
      match replay (eventsIn ((backend.listPortfolioEvents ledger).filter fun entry =>
          entry.requestId ≠ requestId)) with
      | .error refusal => (.error (.refused refusal), ledger)
      | .ok _ => (.ok (), ledger.map (backend.void requestId now))
    else (.error (.lookup "Movimentação inexistente"), ledger) := by
  unfold voidPortfolioEvent
  simp only [bind, Transaction.read]
  split
  · split <;> rename_i found <;> simp only [found] <;> rfl
  · rfl

theorem raised_unchanged {asked : Asked} {refusal : LedgerRefusal} {after : Ledger}
    (raised : serve backend asked ledger = (.error refusal, after)) : after = ledger := by
  cases asked with
  | write requestId event skipped =>
    change writePortfolioEvent backend skipped requestId event ledger = _ at raised
    rw [write_eq] at raised
    split at raised
    · cases raised
      rfl
    · cases raised
    · split at raised
      · cases raised
        rfl
      · cases raised
  | void requestId now =>
    change voidPortfolioEvent backend requestId now ledger = _ at raised
    rw [void_eq] at raised
    split at raised
    · split at raised
      · cases raised
        rfl
      · cases raised
    · cases raised
      rfl

theorem le_lastSequence {entries : List Entry} {entry : Entry} (member : entry ∈ entries) :
    entry.event.sequence ≤ Backend.lastSequence entries := by
  unfold Backend.lastSequence
  induction entries with
  | nil => cases member
  | cons first rest ih =>
    rw [List.map_cons, List.foldr_cons]
    rcases List.mem_cons.mp member with rfl | later
    · exact le_max_left _ _
    · exact (ih later).trans (le_max_right _ _)

theorem listed_perm (backend : Backend) (ledger : Ledger) :
    (backend.listPortfolioEvents ledger).Perm (active ledger) := by
  cases backend with
  | memory => exact List.Perm.refl _
  | table => exact stableSort_perm _ _

theorem mem_listed {entry : Entry} : entry ∈ backend.listPortfolioEvents ledger ↔ entry ∈ active ledger :=
  (listed_perm backend ledger).mem_iff

theorem mem_active {entry : Entry} : entry ∈ active ledger ↔ entry ∈ ledger ∧ entry.voidedAt = none := by
  simp [active]

structure Consistent (backend : Backend) (ledger : Ledger) : Prop where
  accepted : ∃ holdings, replay (eventsIn (active ledger)) = .ok holdings
  market : ∀ first ∈ active ledger, ∀ second ∈ active ledger,
    first.event.symbol = second.event.symbol → first.event.market = second.event.market
  once : (ledger.map Entry.requestId).Nodup
  numbered : (ledger.map fun entry => entry.event.sequence).Nodup
  below : ∀ entry ∈ ledger, ∀ skipped, entry.event.sequence < backend.nextSequence ledger skipped

theorem Consistent.active_numbered (consistent : Consistent backend ledger) :
    ((eventsIn (active ledger)).map Event.sequence).Nodup := by
  have sublist : (active ledger).Sublist ledger := List.filter_sublist
  have numbered := consistent.numbered.sublist (sublist.map fun entry => entry.event.sequence)
  unfold eventsIn
  rw [List.map_map]
  exact numbered

theorem Consistent.replay_listed (consistent : Consistent backend ledger) :
    replay (eventsIn (backend.listPortfolioEvents ledger)) = replay (eventsIn (active ledger)) :=
  (replay_eq_of_perm ((listed_perm backend ledger).map Entry.event).symm consistent.active_numbered).symm

theorem Consistent.replay_written (consistent : Consistent backend ledger) (event : Event) (skipped : ℕ) :
    replay (eventsIn (backend.listPortfolioEvents ledger) ++
        [event.numbered (Backend.lastSequence (backend.listPortfolioEvents ledger) + 1)]) =
      replay (eventsIn (active ledger) ++ [event.numbered (backend.nextSequence ledger skipped)]) := by
  have listedFirst : ∀ other ∈ eventsIn (backend.listPortfolioEvents ledger),
      other.sequence < Backend.lastSequence (backend.listPortfolioEvents ledger) + 1 := by
    intro other member
    obtain ⟨entry, entryIn, rfl⟩ := List.mem_map.mp member
    have bound := le_lastSequence entryIn
    omega
  have storedAfter : ∀ other ∈ eventsIn (active ledger),
      other.sequence < backend.nextSequence ledger skipped := by
    intro other member
    obtain ⟨entry, entryIn, rfl⟩ := List.mem_map.mp member
    exact consistent.below entry (mem_active.mp entryIn).1 skipped
  have listedAfter : ∀ other ∈ eventsIn (backend.listPortfolioEvents ledger),
      other.sequence < backend.nextSequence ledger skipped := fun other member =>
    storedAfter other (((listed_perm backend ledger).map Entry.event).mem_iff.mp member)
  rw [← replay_numbered listedFirst listedAfter]
  refine (replay_eq_of_perm (((listed_perm backend ledger).map Entry.event).symm.append_right _) ?_).symm
  rw [List.map_append, List.nodup_append]
  refine ⟨consistent.active_numbered, List.nodup_singleton _, ?_⟩
  intro first firstIn second secondIn same
  obtain ⟨other, otherIn, rfl⟩ := List.mem_map.mp firstIn
  rw [List.map_cons, List.map_nil, List.mem_singleton] at secondIn
  have before := storedAfter other otherIn
  rw [same, secondIn] at before
  exact lt_irrefl _ before

theorem validate_new (validated : validate (backend.listPortfolioEvents ledger) requestId event = .ok true) :
    (∀ entry ∈ active ledger, entry.event.symbol = event.symbol → entry.event.market = event.market) ∧
      ∃ holdings, replay (eventsIn (backend.listPortfolioEvents ledger) ++
        [event.numbered (Backend.lastSequence (backend.listPortfolioEvents ledger) + 1)]) = .ok holdings := by
  unfold validate at validated
  split at validated
  · cases validated
  · rename_i agreed
    refine ⟨fun entry entryIn symbol => ?_, ?_⟩
    · by_contra apart
      refine agreed (List.any_eq_true.mpr ⟨entry, mem_listed.mpr entryIn, ?_⟩)
      exact decide_eq_true ⟨symbol, apart⟩
    · split at validated
      · split at validated <;> cases validated
      · split at validated
        · rename_i holdings accepted
          exact ⟨holdings, accepted⟩
        · cases validated

theorem nextSequence_append (entry : Entry)
    (own : ∃ skipped, entry.event.sequence = backend.nextSequence ledger skipped)
    (below : ∀ other ∈ ledger, ∀ skipped, other.event.sequence < backend.nextSequence ledger skipped) :
    ∀ other ∈ ledger ++ [entry], ∀ skipped,
      other.event.sequence < backend.nextSequence (ledger ++ [entry]) skipped := by
  intro other member skipped
  cases backend with
  | table =>
    have bound := le_lastSequence member
    simp only [Backend.nextSequence]
    omega
  | memory =>
    simp only [Backend.nextSequence, List.length_append, List.length_singleton, Nat.cast_add,
      Nat.cast_one] at own below ⊢
    rcases List.mem_append.mp member with old | new
    · have before := below other old skipped
      omega
    · obtain ⟨_, same⟩ := own
      rw [List.mem_singleton.mp new, same]
      omega

theorem Consistent.written (consistent : Consistent backend ledger) (skipped : ℕ)
    (validated : validate (backend.listPortfolioEvents ledger) requestId event = .ok true)
    (fresh : ¬ ledger.any fun entry => entry.requestId = requestId) :
    Consistent backend (ledger ++
      [{ requestId := requestId, event := event.numbered (backend.nextSequence ledger skipped) }]) := by
  obtain ⟨market, holdings, accepted⟩ := validate_new validated
  have shown : active (ledger ++ [({ requestId := requestId
                                     event := event.numbered (backend.nextSequence ledger skipped) } : Entry)]) =
      active ledger ++ [{ requestId := requestId
                          event := event.numbered (backend.nextSequence ledger skipped) }] := by
    unfold active
    rw [List.filter_append]
    rfl
  refine ⟨⟨holdings, ?_⟩, ?_, ?_, ?_, ?_⟩
  · rw [shown]
    unfold eventsIn
    rw [List.map_append]
    exact (consistent.replay_written event skipped).symm.trans accepted
  · rw [shown]
    intro first firstIn second secondIn symbol
    rcases List.mem_append.mp firstIn with old | new <;> rcases List.mem_append.mp secondIn with older | newer
    · exact consistent.market first old second older symbol
    · rw [List.mem_singleton.mp newer] at symbol ⊢
      exact market first old symbol
    · rw [List.mem_singleton.mp new] at symbol ⊢
      exact (market second older symbol.symm).symm
    · rw [List.mem_singleton.mp new, List.mem_singleton.mp newer]
  · rw [List.map_append, List.nodup_append]
    refine ⟨consistent.once, List.nodup_singleton _, ?_⟩
    intro first firstIn second secondIn same
    obtain ⟨entry, entryIn, rfl⟩ := List.mem_map.mp firstIn
    rw [List.map_cons, List.map_nil, List.mem_singleton] at secondIn
    refine fresh (List.any_eq_true.mpr ⟨entry, entryIn, ?_⟩)
    exact decide_eq_true (same.trans secondIn)
  · rw [List.map_append, List.nodup_append]
    refine ⟨consistent.numbered, List.nodup_singleton _, ?_⟩
    intro first firstIn second secondIn same
    obtain ⟨entry, entryIn, rfl⟩ := List.mem_map.mp firstIn
    rw [List.map_cons, List.map_nil, List.mem_singleton] at secondIn
    have before := consistent.below entry entryIn skipped
    rw [same, secondIn] at before
    exact lt_irrefl _ before
  · exact nextSequence_append _ ⟨skipped, rfl⟩ consistent.below

theorem void_requestId (now : Int) (entry : Entry) :
    (backend.void requestId now entry).requestId = entry.requestId := by
  unfold Backend.void
  split <;> rfl

theorem void_event (now : Int) (entry : Entry) : (backend.void requestId now entry).event = entry.event := by
  unfold Backend.void
  split <;> rfl

theorem active_void (now : Int) : active (ledger.map (backend.void requestId now)) =
    (active ledger).filter fun entry => entry.requestId ≠ requestId := by
  unfold active
  rw [List.filter_map, List.filter_filter]
  have kept : ledger.filter ((fun entry : Entry => entry.voidedAt.isNone) ∘ backend.void requestId now) =
      ledger.filter fun entry => decide (entry.requestId ≠ requestId) && entry.voidedAt.isNone := by
    refine List.filter_congr fun entry _ => ?_
    unfold Function.comp Backend.void
    by_cases own : entry.requestId = requestId <;> cases voided : entry.voidedAt <;> cases backend <;>
      simp [own, voided]
  rw [kept]
  refine (List.map_congr_left fun entry member => ?_).trans (List.map_id _)
  have apart : entry.requestId ≠ requestId := by
    have both := (List.mem_filter.mp member).2
    simp only [Bool.and_eq_true, decide_eq_true_eq] at both
    exact both.1
  unfold Backend.void
  rw [if_neg fun own => apart own.1]
  rfl

theorem void_ids (now : Int) : (ledger.map (backend.void requestId now)).map Entry.requestId =
    ledger.map Entry.requestId := by
  rw [List.map_map]
  exact List.map_congr_left fun entry _ => void_requestId now entry

theorem void_sequences (now : Int) :
    (ledger.map (backend.void requestId now)).map (fun entry => entry.event.sequence) =
      ledger.map fun entry => entry.event.sequence := by
  rw [List.map_map]
  exact List.map_congr_left fun entry _ => congrArg Event.sequence (void_event now entry)

theorem nextSequence_void (now : Int) (skipped : ℕ) :
    backend.nextSequence (ledger.map (backend.void requestId now)) skipped =
      backend.nextSequence ledger skipped := by
  unfold Backend.nextSequence Backend.lastSequence
  rw [void_sequences, List.length_map]

theorem Consistent.voided (consistent : Consistent backend ledger) (now : Int) {holdings : Holdings}
    (remaining : replay (eventsIn ((backend.listPortfolioEvents ledger).filter fun entry =>
      entry.requestId ≠ requestId)) = .ok holdings) :
    Consistent backend (ledger.map (backend.void requestId now)) := by
  have left : replay (eventsIn ((active ledger).filter fun entry => entry.requestId ≠ requestId)) = .ok holdings := by
    refine (replay_eq_of_perm (((listed_perm backend ledger).filter _).map Entry.event).symm ?_).trans remaining
    refine consistent.active_numbered.sublist ?_
    exact ((List.filter_sublist).map Entry.event).map Event.sequence
  refine ⟨⟨holdings, ?_⟩, ?_, ?_, ?_, ?_⟩
  · rw [active_void]
    exact left
  · rw [active_void]
    intro first firstIn second secondIn
    exact consistent.market first (List.mem_filter.mp firstIn).1 second (List.mem_filter.mp secondIn).1
  · rw [void_ids]
    exact consistent.once
  · rw [void_sequences]
    exact consistent.numbered
  · intro entry member skipped
    obtain ⟨before, beforeIn, rfl⟩ := List.mem_map.mp member
    rw [void_event, nextSequence_void]
    exact consistent.below before beforeIn skipped

theorem Consistent.serve (consistent : Consistent backend ledger) (asked : Asked) :
    Consistent backend (serve backend asked ledger).2 := by
  cases asked with
  | write requestId event skipped =>
    change Consistent backend (writePortfolioEvent backend skipped requestId event ledger).2
    rw [write_eq]
    split
    · exact consistent
    · exact consistent
    · rename_i validated
      split
      · exact consistent
      · rename_i fresh
        exact consistent.written skipped validated fresh
  | void requestId now =>
    change Consistent backend (voidPortfolioEvent backend requestId now ledger).2
    rw [void_eq]
    split
    · split
      · exact consistent
      · rename_i remaining
        exact consistent.voided now remaining
    · exact consistent

theorem Consistent.empty : Consistent backend [] := by
  refine ⟨⟨Dict.empty, rfl⟩, ?_, List.nodup_nil, List.nodup_nil, ?_⟩
  · intro first never
    cases never
  · intro entry never
    cases never

theorem served_consistent (backend : Backend) (requests : List Asked) :
    Consistent backend (served backend requests) :=
  foldl_keeps (Consistent backend) requests (fun asked _ _ before => before.serve asked) .empty

theorem Consistent.find (consistent : Consistent backend ledger) {entry : Entry} (stored : entry ∈ ledger) :
    (backend.listPortfolioEvents ledger).find? (fun other => other.requestId = entry.requestId) =
      if entry.voidedAt = none then some entry else none := by
  have own : ∀ other ∈ ledger, other.requestId = entry.requestId → other = entry := fun other otherIn same =>
    List.inj_on_of_nodup_map consistent.once otherIn stored same
  split
  · rename_i kept
    have listed : entry ∈ backend.listPortfolioEvents ledger := mem_listed.mpr (mem_active.mpr ⟨stored, kept⟩)
    cases found : (backend.listPortfolioEvents ledger).find? (fun other => other.requestId = entry.requestId) with
    | none =>
      have never := List.find?_eq_none.mp found entry listed
      simp at never
    | some other =>
      have otherIn := (mem_active.mp (mem_listed.mp (List.mem_of_find?_eq_some found))).1
      have same := List.find?_some found
      rw [own other otherIn (of_decide_eq_true same)]
  · rename_i voided
    refine List.find?_eq_none.mpr fun other otherIn same => ?_
    obtain ⟨otherStored, kept⟩ := mem_active.mp (mem_listed.mp otherIn)
    rw [own other otherStored (of_decide_eq_true same)] at kept
    exact voided kept

theorem Consistent.retry (consistent : Consistent backend ledger) {entry : Entry} (stored : entry ∈ ledger)
    (kept : entry.voidedAt = none) (same : samePayload entry.event event) (skipped : ℕ) :
    writePortfolioEvent backend skipped entry.requestId event ledger = (.ok (), ledger) := by
  have agreed : ¬ (backend.listPortfolioEvents ledger).any fun other =>
      other.event.symbol = event.symbol ∧ other.event.market ≠ event.market := by
    intro disagreed
    obtain ⟨other, otherIn, apart⟩ := List.any_eq_true.mp disagreed
    obtain ⟨symbol, market⟩ := of_decide_eq_true apart
    refine market ?_
    rw [consistent.market other (mem_listed.mp otherIn) entry (mem_active.mpr ⟨stored, kept⟩)
      (symbol.trans same.1.symm)]
    exact same.2.1
  have validated : validate (backend.listPortfolioEvents ledger) entry.requestId event = .ok false := by
    unfold validate
    rw [if_neg agreed, consistent.find stored, if_pos kept]
    exact if_pos same
  rw [write_eq, validated]

theorem Consistent.refused (consistent : Consistent backend ledger) {entry : Entry} (stored : entry ∈ ledger)
    (other : entry.voidedAt ≠ none ∨ ¬ samePayload entry.event event) (skipped : ℕ) :
    ∃ refusal, (writePortfolioEvent backend skipped entry.requestId event ledger).1 = .error refusal := by
  have found := consistent.find stored
  have used : ledger.any (fun known => known.requestId = entry.requestId) = true :=
    List.any_eq_true.mpr ⟨entry, stored, decide_eq_true rfl⟩
  rw [write_eq]
  cases validated : validate (backend.listPortfolioEvents ledger) entry.requestId event with
  | error refusal => exact ⟨refusal, rfl⟩
  | ok isNew =>
    cases isNew with
    | true =>
      simp only [used, if_true]
      exact ⟨_, rfl⟩
    | false =>
      unfold validate at validated
      rw [found] at validated
      split at validated
      · cases validated
      · split at validated
        · rename_i matching same
          split at same
          · cases same
            rename_i kept
            rw [if_neg (other.resolve_left (not_not.mpr kept))] at validated
            cases validated
          · cases same
        · split at validated <;> cases validated

end Calls

/-- Whatever clients ask and in whatever order, the stored ledger replays, a symbol has one market, an
identifier is stored once, a retry changes nothing, a used identifier is refused to anything else, and
a request that raises leaves the ledger as it was. -/
theorem ledger_consistent (backend : Backend) (requests : List Asked) :
    (∃ holdings, replay (eventsIn (backend.listPortfolioEvents (served backend requests))) = .ok holdings) ∧
    (∀ first ∈ active (served backend requests), ∀ second ∈ active (served backend requests),
      first.event.symbol = second.event.symbol → first.event.market = second.event.market) ∧
    ((served backend requests).map Entry.requestId).Nodup ∧
    (∀ entry ∈ served backend requests, ∀ event skipped, samePayload entry.event event →
      (serve backend (.write entry.requestId event skipped) (served backend requests)).2 =
        served backend requests ∧
      (entry.voidedAt = none →
        (serve backend (.write entry.requestId event skipped) (served backend requests)).1 = .ok ())) ∧
    (∀ entry ∈ served backend requests, ∀ event skipped,
      entry.voidedAt ≠ none ∨ ¬ samePayload entry.event event → ∃ refusal,
        (serve backend (.write entry.requestId event skipped) (served backend requests)).1 = .error refusal) ∧
    (∀ asked refusal after,
      serve backend asked (served backend requests) = (.error refusal, after) →
        after = served backend requests) := by
  have consistent := served_consistent backend requests
  refine ⟨?_, consistent.market, consistent.once, fun entry stored event skipped same => ?_,
    fun entry stored event skipped other => consistent.refused stored other skipped,
    fun asked refusal after raised => raised_unchanged raised⟩
  · rw [consistent.replay_listed]
    exact consistent.accepted
  · by_cases kept : entry.voidedAt = none
    · have retried := consistent.retry stored kept same skipped
      exact ⟨congrArg Prod.snd retried, fun _ => congrArg Prod.fst retried⟩
    · obtain ⟨refusal, raised⟩ := @Consistent.refused _ _ event consistent entry stored (.inl kept) skipped
      have unchanged := @raised_unchanged backend _ (.write entry.requestId event skipped) refusal _
        (Prod.ext raised rfl)
      exact ⟨unchanged, fun never => absurd never kept⟩

end C3po.Portfolio
