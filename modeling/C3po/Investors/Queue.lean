import Mathlib.Data.List.Count
import Mathlib.Data.List.Dedup
import C3po.Library.StableSort

/-! The queue of investor-relations revaluations: events, the items queued for them, the
claims of the workers and what they report back.

Every call is one transaction over two tables. What a run did is noted beside them, newest
first; no call reads the notes.
-/

set_option autoImplicit false

namespace C3po.Investors
open C3po.Library

inductive Market where
  | b3
  | us
  deriving DecidableEq, Repr

/-- `str.upper`, over ASCII. -/
def upper (text : String) : String := String.ofList (text.toList.map Char.toUpper)

/-- Registration stores symbols in upper case. -/
structure Symbol where
  text : String
  upper : upper text = text
  deriving DecidableEq

/-- The primary key of the queue. -/
structure Key where
  event : String
  market : Market
  symbol : Symbol
  deriving DecidableEq

inductive Status where
  | queued
  | processing
  | applied
  | failed
  deriving DecidableEq, Repr

/-- A row of `ir_valuation_queue`; times are microseconds. -/
structure Item where
  key : Key
  status : Status
  attempts : ℕ
  queuedAt : ℤ
  processedAt : Option ℤ
  lastError : String
  updatedAt : ℤ
  deriving DecidableEq

inductive ValuationStatus where
  | pendingReview
  | incorporated
  | informational
  deriving DecidableEq, Repr

/-- A row of `ir_events`, as far as the queue reads it. -/
structure IrEvent where
  id : String
  source : String
  external : String
  company : Option String
  relevant : Bool
  status : ValuationStatus
  reviewed : Bool
  note : String
  deriving DecidableEq, Repr

/-- The statuses a collector gives a new event. -/
inductive Intake where
  | pendingReview
  | informational
  deriving DecidableEq, Repr

def Intake.status : Intake → ValuationStatus
  | .pendingReview => .pendingReview
  | .informational => .informational

/-- An event as a collector saves it. -/
structure Incoming where
  id : String
  source : String
  external : String
  company : Option String
  relevant : Bool
  status : Intake
  deriving DecidableEq, Repr

/-- A row of `ir_security_map`. -/
structure Security where
  market : Market
  symbol : Symbol
  company : String
  deriving DecidableEq

structure Tables where
  events : List IrEvent
  queue : List Item
  deriving DecidableEq

section Saving

def Incoming.new (incoming : Incoming) : IrEvent :=
  ⟨incoming.id, incoming.source, incoming.external, incoming.company, incoming.relevant, incoming.status.status, false, ""⟩

/-- `ON CONFLICT (source_code, external_id) DO UPDATE`. -/
def IrEvent.merge (event : IrEvent) (incoming : Incoming) : IrEvent :=
  { event with
    company := incoming.company <|> event.company
    relevant := incoming.relevant
    status := if event.reviewed || event.status == .incorporated then event.status else incoming.status.status }

def IrEvent.matches (event : IrEvent) (incoming : Incoming) : Bool :=
  event.source == incoming.source && event.external == incoming.external

/-- One row of the upsert; an id that another event has breaks the primary key. -/
def upsert (events : List IrEvent) (incoming : Incoming) : Option (List IrEvent) :=
  if events.any (·.matches incoming) then
    some (events.map fun event => if event.matches incoming then event.merge incoming else event)
  else if events.any (·.id == incoming.id) then none
  else some (events ++ [incoming.new])

/-- `symbol ~ '[0-9]F$'` on B3. -/
def Security.fractional (security : Security) : Bool :=
  security.market == .b3 && match security.symbol.text.toList.reverse with
    | 'F' :: digit :: _ => digit.isDigit
    | _ => false

def mapped (securities : List Security) (event : IrEvent) : List Key :=
  (securities.filter fun security => event.company == some security.company && !security.fractional).map
    fun security => ⟨event.id, security.market, security.symbol⟩

def Key.fresh (key : Key) (now : ℤ) : Item := ⟨key, .queued, 0, now, none, "", now⟩

def holds (queue : List Item) (key : Key) : Bool := queue.any (·.key == key)

/-- `ON CONFLICT DO NOTHING`. -/
def insertNew (now : ℤ) (queue : List Item) (key : Key) : List Item :=
  if holds queue key then queue else queue ++ [key.fresh now]

/-- The keys that the saved events ask for. -/
def wanted (events : List IrEvent) (incoming : List Incoming) (securities : List Security) : List Key :=
  (events.filter fun event => event.relevant && incoming.any fun row => row.relevant && event.matches row).flatMap
    (mapped securities)

/-- `save_ir_events`. -/
def saveIrEvents (tables : Tables) (incoming : List Incoming) (securities : List Security) (now : ℤ) : Option Tables := do
  let events ← incoming.foldlM upsert tables.events
  return ⟨events, (wanted events incoming securities).foldl (insertNew now) tables.queue⟩

end Saving

section Queueing

/-- `ON CONFLICT DO UPDATE`: the item starts over. -/
def requeue (now : ℤ) (queue : List Item) (key : Key) : List Item :=
  if holds queue key then queue.map fun item => if item.key = key then key.fresh now else item
  else queue ++ [key.fresh now]

def reviewed (tables : Tables) (event : String) (securities : List Security) : List Key :=
  (tables.events.filter fun found => found.id == event && found.relevant).flatMap (mapped securities)

/-- `queue_ir_event_for_valuation`. -/
def queueIrEvent (tables : Tables) (event : String) (securities : List Security) (now : ℤ) : Tables :=
  { tables with queue := (reviewed tables event securities).foldl (requeue now) tables.queue }

end Queueing

section Claiming

/-- The lease of a claim: thirty minutes. -/
def lease : ℤ := 30 * 60 * 1000000

def Item.pending (item : Item) (now : ℤ) : Bool :=
  item.status == .queued || (item.status == .processing && item.updatedAt < now - lease)

structure Claimed where
  key : Key
  attempts : ℕ
  queuedAt : ℤ
  deriving DecidableEq

def picked (queue : List Item) (limit : ℕ) (now : ℤ) : List Item :=
  (stableSort Item.queuedAt (queue.filter (·.pending now))).take limit

def Item.process (item : Item) (now : ℤ) : Item := { item with status := .processing, updatedAt := now }

/-- `claim_ir_valuation_updates`. -/
def claimIrValuationUpdates (tables : Tables) (limit : ℕ) (now : ℤ) : Tables × List Claimed :=
  let keys := (picked tables.queue limit now).map Item.key
  ({ tables with queue := tables.queue.map fun item => if item.key ∈ keys then item.process now else item },
    (tables.queue.filter fun item => item.key ∈ keys).map fun item => ⟨item.key, item.attempts, item.queuedAt⟩)

end Claiming

section Finishing

/-- `WHERE event_id = %s AND symbol = %s`: the market is not asked for. -/
def Item.hit (item : Item) (key : Key) : Bool :=
  item.key.event == key.event && item.key.symbol.text == upper key.symbol.text

def Item.finish (item : Item) (succeeded : Bool) (error : String) (now : ℤ) : Item :=
  if succeeded then { item with status := .applied, processedAt := some now, lastError := "", updatedAt := now }
  else { item with
    attempts := item.attempts + 1
    status := if item.attempts + 1 ≥ 3 then .failed else .queued
    lastError := String.ofList (error.toList.take 500)
    updatedAt := now }

def finishOne (succeeded : Bool) (error : String) (now : ℤ) (queue : List Item) (key : Key) : List Item :=
  queue.map fun item => if item.hit key then item.finish succeeded error now else item

/-- The event is incorporated unless an item of it is not applied. -/
def IrEvent.incorporate (event : IrEvent) (queue : List Item) (ids : List String) : IrEvent :=
  if event.id ∈ ids ∧ ∀ item ∈ queue, item.key.event = event.id → item.status = .applied then
    { event with
      status := .incorporated
      note := if event.note = "" then "Automatically incorporated after successful valuation refresh." else event.note }
  else event

/-- `finish_ir_valuation_updates`. -/
def finishIrValuationUpdates (tables : Tables) (updates : List Key) (succeeded : Bool) (error : String)
    (incorporateEvents : Bool) (now : ℤ) : Tables :=
  let queue := updates.foldl (finishOne succeeded error now) tables.queue
  if succeeded ∧ incorporateEvents then
    ⟨tables.events.map fun event => event.incorporate queue (updates.map Key.event), queue⟩
  else { tables with queue := queue }

end Finishing

section Runs

/-- What happened to an item: it was queued, claimed, or a finish of a claim named it. -/
inductive Note where
  | queued (key : Key)
  | claimed (claim : ℕ) (key : Key)
  | finished (claim : ℕ) (key : Key) (succeeded : Bool)
  deriving DecidableEq

/-- The tables, what each claim returned, and the notes. -/
structure State where
  tables : Tables
  claims : List (List Claimed)
  notes : List Note
  deriving DecidableEq

/-- The calls of collectors, reviewers and workers. A finish names items with the claims they come from. -/
inductive Call where
  | save (incoming : List Incoming) (securities : List Security) (now : ℤ)
  | queue (event : String) (securities : List Security) (now : ℤ)
  | claim (limit : ℕ) (now : ℤ)
  | finish (updates : List (ℕ × Key)) (succeeded : Bool) (error : String) (incorporateEvents : Bool) (now : ℤ)
  deriving DecidableEq

/-- A worker only finishes what a claim returned. -/
def Call.Admitted (state : State) : Call → Prop
  | .finish updates _ _ _ _ => ∀ update ∈ updates,
      ∃ returned, state.claims[update.1]? = some returned ∧ ∃ claimed ∈ returned, claimed.key = update.2
  | _ => True

def State.perform (state : State) : Call → State
  | .save incoming securities now =>
    match saveIrEvents state.tables incoming securities now with
    | none => state
    | some tables =>
      let inserted := (wanted tables.events incoming securities).filter fun key => !holds state.tables.queue key
      { state with tables := tables, notes := inserted.map .queued ++ state.notes }
  | .queue event securities now =>
    { state with
      tables := queueIrEvent state.tables event securities now
      notes := (reviewed state.tables event securities).map .queued ++ state.notes }
  | .claim limit now =>
    let (tables, returned) := claimIrValuationUpdates state.tables limit now
    ⟨tables, state.claims ++ [returned], returned.map (fun claimed => .claimed state.claims.length claimed.key) ++ state.notes⟩
  | .finish updates succeeded error incorporateEvents now =>
    { state with
      tables := finishIrValuationUpdates state.tables (updates.map (·.2)) succeeded error incorporateEvents now
      notes := updates.dedup.map (fun update => .finished update.1 update.2 succeeded) ++ state.notes }

def State.start (events : List IrEvent) : State := ⟨⟨events, []⟩, [], []⟩

inductive Reached (allowed : State → Call → Prop) (events : List IrEvent) : State → Prop where
  | start : Reached allowed events (.start events)
  | call {state : State} {call : Call} (reached : Reached allowed events state) (admitted : call.Admitted state)
      (fits : allowed state call) : Reached allowed events (state.perform call)

end Runs

/-! When a queued revaluation is not lost. -/

section Notes

def since (key : Key) (notes : List Note) : List Note := notes.takeWhile (· ≠ .queued key)

/-- A successful finish belongs to a claim made after the latest queueing. -/
def Succeeded (notes : List Note) (key : Key) : Prop :=
  ∃ claim, .finished claim key true ∈ since key notes ∧ .claimed claim key ∈ since key notes

def Note.fails (key : Key) : Note → Bool
  | .finished _ other succeeded => other == key && !succeeded
  | _ => false

/-- The finishes that failed since the latest queueing. -/
def failures (notes : List Note) (key : Key) : ℕ := (since key notes).countP (·.fails key)

/-- No item is applied or failed but for what happened since its latest queueing. -/
def NotLost (state : State) : Prop := ∀ item ∈ state.tables.queue,
  (item.status = .applied → Succeeded state.notes item.key) ∧
  (item.status = .failed → 3 ≤ failures state.notes item.key ∧
    ∀ claim, .finished claim item.key true ∉ since item.key state.notes)

/-- An event becomes incorporated only when every item of it is applied by right. -/
def Incorporates (state next : State) : Prop := ∀ event ∈ next.tables.events, event.status = .incorporated →
  (∃ before ∈ state.tables.events, before.id = event.id ∧ before.status = .incorporated) ∨
  ∀ item ∈ next.tables.queue, item.key.event = event.id → item.status = .applied ∧ Succeeded next.notes item.key

/-- A finish that succeeds has, for each row it hits that is not applied yet, an own claim made
after its latest queueing; one that fails hits each row once, by its own key, and a third
time only if no finish of it succeeded since. -/
def Timely (state : State) : Call → Prop
  | .finish updates succeeded _ _ _ => ∀ item ∈ state.tables.queue, ∀ update ∈ updates, item.hit update.2 = true →
      if succeeded then item.status = .applied ∨
        ∃ claim, (claim, item.key) ∈ updates ∧ .claimed claim item.key ∈ since item.key state.notes
      else (∃ claim, updates.filter (item.hit ·.2) = [(claim, item.key)]) ∧
        (3 ≤ item.attempts + 1 → ∀ claim, .finished claim item.key true ∉ since item.key state.notes)
  | _ => True

variable {key : Key} {notes added : List Note}

theorem since_append (other : ∀ note ∈ added, note ≠ .queued key) : since key (added ++ notes) = added ++ since key notes :=
  List.takeWhile_append_of_pos fun note here => decide_eq_true (other note here)

theorem since_queued {keys : List Key} (here : key ∈ keys) {note : Note} (found : note ∈ since key (keys.map .queued ++ notes)) :
    ∃ other, note = .queued other := by
  induction keys with
  | nil => cases here
  | cons head rest ih =>
    rw [List.map_cons, List.cons_append, since, List.takeWhile_cons] at found
    split at found
    · rename_i apart
      obtain rfl | found := List.mem_cons.mp found
      · exact ⟨head, rfl⟩
      · refine ih ?_ found
        obtain rfl | inside := List.mem_cons.mp here
        · exact absurd rfl (of_decide_eq_true apart)
        · exact inside
    · cases found

theorem failures_append (other : ∀ note ∈ added, note ≠ .queued key) :
    failures (added ++ notes) key = added.countP (·.fails key) + failures notes key := by
  rw [failures, since_append other, List.countP_append, failures]

end Notes

section Items
variable {item : Item} {notes added : List Note}

/-- What the status of an item rests on. -/
structure Item.Sound (notes : List Note) (item : Item) : Prop where
  applied : item.status = .applied → Succeeded notes item.key
  counted : item.attempts = failures notes item.key
  failed : item.status = .failed → 3 ≤ item.attempts ∧ ∀ claim, .finished claim item.key true ∉ since item.key notes

theorem Item.Sound.quiet (sound : item.Sound notes) (unqueued : ∀ note ∈ added, note ≠ .queued item.key)
    (unfinished : ∀ claim succeeded, .finished claim item.key succeeded ∉ added) : item.Sound (added ++ notes) where
  applied := fun applied => by
    obtain ⟨claim, finished, claimed⟩ := sound.applied applied
    rw [Succeeded, since_append unqueued]
    exact ⟨claim, List.mem_append_right _ finished, List.mem_append_right _ claimed⟩
  counted := by
    rw [failures_append unqueued, sound.counted, List.countP_eq_zero.mpr, Nat.zero_add]
    intro note here
    cases note with
    | queued other => exact Bool.false_ne_true
    | claimed claim other => exact Bool.false_ne_true
    | finished claim other succeeded =>
      rw [Note.fails, Bool.and_eq_true, beq_iff_eq]
      rintro ⟨rfl, -⟩
      exact unfinished claim succeeded here
  failed := fun failed => ⟨(sound.failed failed).1, fun claim finished => by
    rw [since_append unqueued, List.mem_append] at finished
    exact (sound.failed failed).2 claim (finished.resolve_left (unfinished claim true))⟩

theorem fresh_sound {key : Key} {keys : List Key} (here : key ∈ keys) (now : ℤ) :
    (key.fresh now).Sound (keys.map .queued ++ notes) where
  applied := fun applied => nomatch applied
  counted := by
    refine (List.countP_eq_zero.mpr fun note found => ?_).symm
    obtain ⟨other, rfl⟩ := since_queued here found
    exact Bool.false_ne_true
  failed := fun failed => nomatch failed

theorem hit_self (item : Item) : item.hit item.key = true := by
  rw [Item.hit, beq_self_eq_true, item.key.symbol.upper, beq_self_eq_true, Bool.and_self]

theorem finish_key (item : Item) (succeeded : Bool) (error : String) (now : ℤ) :
    (item.finish succeeded error now).key = item.key := by
  unfold Item.finish
  split <;> rfl

theorem finish_hit (item : Item) (succeeded : Bool) (error : String) (now : ℤ) (key : Key) :
    (item.finish succeeded error now).hit key = item.hit key := by
  rw [Item.hit, finish_key, Item.hit]

def Item.settle (updates : List Key) (succeeded : Bool) (error : String) (now : ℤ) (item : Item) : Item :=
  (updates.filter item.hit).foldl (fun item _ => item.finish succeeded error now) item

variable {updates : List Key} {succeeded : Bool} {error : String} {now : ℤ}

theorem foldl_finishOne (queue : List Item) :
    updates.foldl (finishOne succeeded error now) queue = queue.map (Item.settle updates succeeded error now) := by
  induction updates generalizing queue with
  | nil => exact (List.map_id queue).symm
  | cons key rest ih =>
    rw [List.foldl_cons, ih, finishOne, List.map_map]
    refine List.map_congr_left fun item _ => ?_
    rw [Function.comp_apply]
    split
    · rename_i hit
      rw [Item.settle, Item.settle, List.filter_cons_of_pos hit, List.foldl_cons]
      have same : (item.finish succeeded error now).hit = item.hit := funext (finish_hit item succeeded error now)
      rw [same]
    · rename_i missed
      rw [Item.settle, Item.settle, List.filter_cons_of_neg missed]

theorem foldl_finish_key (updates : List Key) (item : Item) :
    (updates.foldl (fun item _ => item.finish succeeded error now) item).key = item.key := by
  induction updates generalizing item with
  | nil => rfl
  | cons _ rest ih => rw [List.foldl_cons, ih, finish_key]

theorem settle_key (item : Item) : (item.settle updates succeeded error now).key = item.key := foldl_finish_key _ item

theorem settle_missed (missed : ∀ key ∈ updates, item.hit key = false) : item.settle updates succeeded error now = item := by
  rw [Item.settle, List.filter_eq_nil_iff.mpr]
  · rfl
  · exact fun key here => Bool.not_eq_true _ ▸ missed key here

theorem settle_applied {key : Key} (here : key ∈ updates) (hit : item.hit key = true) :
    (item.settle updates true error now).status = .applied ∧ (item.settle updates true error now).attempts = item.attempts := by
  have applied : ∀ (hits : List Key) (item : Item), hits ≠ [] →
      (hits.foldl (fun item _ => item.finish true error now) item).status = .applied ∧
      (hits.foldl (fun item _ => item.finish true error now) item).attempts = item.attempts := by
    intro hits
    induction hits with
    | nil => exact fun _ none => absurd rfl none
    | cons first rest ih =>
      intro item _
      rw [List.foldl_cons]
      by_cases last : rest = []
      · subst last
        exact ⟨rfl, rfl⟩
      · exact ih (item.finish true error now) last
  exact applied _ item (List.ne_nil_of_mem (List.mem_filter.mpr ⟨here, hit⟩))

end Items

section Queues
variable {queue : List Item} {key : Key} {keys : List Key} {item : Item} {now : ℤ}

theorem holds_iff : holds queue key = true ↔ key ∈ queue.map Item.key := by
  rw [holds, List.any_eq_true, List.mem_map]
  simp only [beq_iff_eq]

theorem mem_inserted (here : item ∈ keys.foldl (insertNew now) queue) :
    item ∈ queue ∨ ∃ key ∈ keys, holds queue key = false ∧ item = key.fresh now := by
  induction keys generalizing queue with
  | nil => exact .inl here
  | cons first rest ih =>
    obtain before | ⟨key, inside, absent, rfl⟩ := ih here
    · unfold insertNew at before
      split at before
      · exact .inl before
      · rename_i absent
        obtain before | last := List.mem_append.mp before
        · exact .inl before
        · exact .inr ⟨first, List.mem_cons_self, Bool.not_eq_true _ ▸ absent, List.mem_singleton.mp last⟩
    · refine .inr ⟨key, List.mem_cons_of_mem _ inside, ?_, rfl⟩
      unfold insertNew at absent
      split at absent
      · exact absent
      · rw [holds, List.any_append, Bool.or_eq_false_iff] at absent
        exact absent.1

theorem mem_requeued (here : item ∈ keys.foldl (requeue now) queue) :
    (item ∈ queue ∧ item.key ∉ keys) ∨ ∃ key ∈ keys, item = key.fresh now := by
  induction keys generalizing queue with
  | nil => exact .inl ⟨here, List.not_mem_nil⟩
  | cons first rest ih =>
    obtain ⟨before, outside⟩ | ⟨key, inside, rfl⟩ := ih here
    · unfold requeue at before
      split at before
      · obtain ⟨old, there, rfl⟩ := List.mem_map.mp before
        split
        · exact .inr ⟨first, List.mem_cons_self, rfl⟩
        · rename_i apart
          rw [if_neg apart] at outside
          exact .inl ⟨there, List.not_mem_cons_of_ne_of_not_mem apart outside⟩
      · rename_i absent
        obtain before | last := List.mem_append.mp before
        · refine .inl ⟨before, List.not_mem_cons_of_ne_of_not_mem (fun same => absent ?_) outside⟩
          exact holds_iff.mpr (same ▸ List.mem_map_of_mem before)
        · exact .inr ⟨first, List.mem_cons_self, List.mem_singleton.mp last⟩
    · exact .inr ⟨key, List.mem_cons_of_mem _ inside, rfl⟩

end Queues
end C3po.Investors
