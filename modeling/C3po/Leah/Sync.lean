import C3po.Library.StableSort
import C3po.Universe.Service

/-! The events and tasks of an owner: the site and the devices write them, and a sync tells a
device what changed since the cursor it was last given.
-/

set_option autoImplicit false

namespace C3po.Leah
open C3po.Library

section Store

inductive Kind where
  | event
  | task
  deriving DecidableEq, Repr

inductive Source where
  | icloud
  | c3po
  deriving DecidableEq, Repr

/-- What the site writes of an item. -/
structure LeahItemWriteRequest where
  kind : Kind
  title : String
  notes : String := ""
  startsAt : Option Int := none
  endsAt : Option Int := none
  dueAt : Option Int := none
  isAllDay : Bool := false
  isCompleted : Bool := false
  deriving DecidableEq, Repr

structure Payload extends LeahItemWriteRequest where
  externalId : Option String := none
  containerId : Option String := none
  source : Source := .c3po
  sourceDeviceId : Option String := none
  sourceModifiedAt : Option Int := none
  deletedAt : Option Int := none
  deriving DecidableEq, Repr

/-- A row of `leah_items`, under its id. -/
structure Item extends Payload where
  ownerEmail : String
  version : ℕ := 1
  updatedAt : Int
  deriving DecidableEq, Repr

/-- A row of the same owner, kind and external item: what the unique indexes refuse. -/
def Item.sameExternal (written item : Item) : Bool :=
  item.ownerEmail = written.ownerEmail ∧ item.kind = written.kind ∧ written.externalId.isSome ∧ item.externalId = written.externalId ∧
    (written.kind = .event → written.startsAt.isSome ∧ item.startsAt = written.startsAt)

/-- What is written to an item of the store, by its id where there is one; `fresh` is the id that is drawn where there is none. -/
structure Write where
  id : Option String := none
  fresh : String
  payload : Payload

variable (items : Dict String Item) (ownerEmail : String)

/-- `get_leah_item`. -/
def getLeahItem (id : String) : Option Item := (items.get? id).filter fun item => item.ownerEmail = ownerEmail

/-- The rows after a write, unless the table refuses it: the row of the id, else that of the external item, else a new one. -/
def upsertLeahItem (write : Write) (now : Int) : Option (Dict String Item) :=
  let row : Item := { write.payload with title := Universe.strip write.payload.title, ownerEmail := ownerEmail, updatedAt := now }
  match (write.id.filter (· ≠ "")).bind fun id => (getLeahItem items ownerEmail id).map (id, ·) with
  | some (id, item) =>
    let next := { row with kind := item.kind, externalId := row.externalId.or item.externalId, version := item.version + 1 }
    if items.entries.any fun entry => entry.1 ≠ id ∧ next.sameExternal entry.2 then none else some (items.insert id next)
  | none =>
    match items.entries.find? fun entry => row.sameExternal entry.2 with
    | some (id, item) => some (items.insert id { row with version := item.version + 1 })
    | none =>
      let id := (write.id.filter (· ≠ "")).getD write.fresh
      if items.contains id then none else some (items.insert id row)

def deleteLeahItem (id : String) (now : Int) : Dict String Item :=
  match getLeahItem items ownerEmail id with
  | some item => items.insert id { item with deletedAt := some now, updatedAt := now, version := item.version + 1, source := .c3po }
  | none => items

/-- An event that the device stored and no longer sees. -/
def Item.unseen (deviceId : String) (occurrences : List (String × Int)) (windowStart windowEnd : Int) (item : Item) : Bool :=
  item.ownerEmail = ownerEmail ∧ item.kind = .event ∧ item.source = .icloud ∧ item.sourceDeviceId = some deviceId ∧ item.deletedAt = none ∧
    item.startsAt.any (fun start => windowStart ≤ start ∧ start < windowEnd) ∧
    ∀ occurrence ∈ occurrences, (item.externalId, item.startsAt) ≠ (some occurrence.1, some occurrence.2)

def reconcileLeahEventSnapshot (deviceId : String) (occurrences : List (String × Int)) (windowStart windowEnd now : Int) : Dict String Item :=
  items.mapValues fun item =>
    if item.unseen ownerEmail deviceId occurrences windowStart windowEnd then
      { item with deletedAt := some now, updatedAt := now, version := item.version + 1 }
    else item

def listLeahChanges (since : Option Int) : List (String × Item) :=
  stableSort (fun entry => entry.2.updatedAt) (items.entries.filter fun entry =>
    entry.2.ownerEmail = ownerEmail ∧ since.all fun since => since < entry.2.updatedAt)

def listLeahDeletedChanges (since : Int) : List (String × Item) :=
  stableSort (fun entry => entry.2.updatedAt) (items.entries.filter fun entry =>
    entry.2.ownerEmail = ownerEmail ∧ entry.2.source = .c3po ∧ entry.2.deletedAt.any fun deletedAt => since ≤ deletedAt)

end Store

section Service

structure LeahAgentSyncRequest where
  replayDeletedSince : Option Int := none
  calendarAuthorized : Bool := false
  items : List Write := []
  calendarSnapshot : Option (List (String × Int)) := none
  calendarSnapshotStart : Option Int := none
  calendarSnapshotEnd : Option Int := none

/-- The writes of a sync, each committed on its own, up to one that is refused; and whether none was. -/
def upsertAll (ownerEmail deviceId : String) (now : Int) : List Write → Dict String Item → Dict String Item × Bool
  | [], items => (items, true)
  | write :: rest, items =>
    match upsertLeahItem items ownerEmail
      { write with payload := { write.payload with source := .icloud, sourceDeviceId := some deviceId } } now with
    | some next => upsertAll ownerEmail deviceId now rest next
    | none => (items, false)

variable (ownerEmail deviceId : String) (request : LeahAgentSyncRequest) (items : Dict String Item) (now : Int)

def reconciled : Dict String Item :=
  match request.calendarSnapshot, request.calendarSnapshotStart, request.calendarSnapshotEnd with
  | some occurrences, some windowStart, some windowEnd =>
    if request.calendarAuthorized then reconcileLeahEventSnapshot items ownerEmail deviceId occurrences windowStart windowEnd now else items
  | _, _, _ => items

def changes (cursor : Option Int) : List (String × Item) :=
  let changes := listLeahChanges items ownerEmail cursor
  match request.replayDeletedSince with
  | none => changes
  | some since => stableSort (fun entry => entry.2.updatedAt)
      (changes ++ (listLeahDeletedChanges items ownerEmail since).filter fun entry => entry.1 ∉ changes.map Prod.fst)

/-- The rows that a sync leaves, and the items it answers with, unless a write of it was refused; the new cursor is `now`. -/
def sync (cursor : Option Int) : Dict String Item × Option (List (String × Item)) :=
  match upsertAll ownerEmail deviceId now request.items items with
  | (stored, false) => (stored, none)
  | (stored, true) =>
    let stored := reconciled ownerEmail deviceId request stored now
    (stored, some (changes ownerEmail request stored cursor))

end Service

section Runs

/-- The rows, and of each device the cursor and the items it was told, by their ids. -/
structure State where
  items : Dict String Item := Dict.empty
  cursors : String → Option Int := fun _ => none
  told : String → Dict String Item := fun _ => Dict.empty

/-- A request; `received` says whether the answer of a sync reached its device. -/
inductive Call where
  | sync (deviceId : String) (request : LeahAgentSyncRequest) (received : Bool)
  | createLeahItem (ownerEmail fresh : String) (payload : LeahItemWriteRequest)
  | updateLeahItem (ownerEmail id : String) (payload : LeahItemWriteRequest)
  | deleteLeahItem (ownerEmail id : String)

structure Timed where
  call : Call
  now : Int

variable (ownerOf : String → String)

/-- A device sends the cursor it has; one that was paired has an owner for good. -/
def perform (state : State) (timed : Timed) : State :=
  match timed.call with
  | .sync deviceId request received =>
    match Leah.sync (ownerOf deviceId) deviceId request state.items timed.now (state.cursors deviceId) with
    | (items, some changes) =>
      if received then
        { items := items
          cursors := Function.update state.cursors deviceId (some timed.now)
          told := Function.update state.told deviceId (changes.foldl (fun told entry => told.insert entry.1 entry.2) (state.told deviceId)) }
      else { state with items := items }
    | (items, none) => { state with items := items }
  | .createLeahItem ownerEmail fresh payload =>
    { state with items := (upsertLeahItem state.items ownerEmail ⟨none, fresh, { payload with source := .c3po }⟩ timed.now).getD state.items }
  | .updateLeahItem ownerEmail id payload =>
    match getLeahItem state.items ownerEmail id with
    | none => state
    | some item =>
      { state with items := (upsertLeahItem state.items ownerEmail
          ⟨some id, id, { item.toPayload with toLeahItemWriteRequest := payload, source := .c3po, sourceDeviceId := none }⟩ timed.now).getD state.items }
  | .deleteLeahItem ownerEmail id => { state with items := deleteLeahItem state.items ownerEmail id timed.now }

def run (calls : List Timed) : State := calls.foldl (perform ownerOf) {}

end Runs

section Mirrors
variable {now : Int} {before middle after items : Dict String Item} {ownerEmail : String}

/-- What a request may do to the rows: each stays as it was, or is stamped now and keeps its owner. -/
def Stamped (now : Int) (before after : Dict String Item) : Prop :=
  ∀ id, after.get? id = before.get? id ∨ ∃ item, after.get? id = some item ∧ item.updatedAt = now ∧
    ∀ old, before.get? id = some old → old.ownerEmail = item.ownerEmail

theorem Stamped.refl (now : Int) (items : Dict String Item) : Stamped now items items := fun _ => .inl rfl

theorem Stamped.trans (first : Stamped now before middle) (second : Stamped now middle after) : Stamped now before after := by
  intro id
  rcases second id with same | ⟨item, there, stamp, owner⟩
  · rw [same]
    exact first id
  refine .inr ⟨item, there, stamp, fun old held => ?_⟩
  rcases first id with same | ⟨between, found, -, kept⟩
  · exact owner old (same ▸ held)
  · exact (kept old held).trans (owner between found)

theorem stamped_insert {id : String} {item : Item} (stamp : item.updatedAt = now)
    (owner : ∀ old, items.get? id = some old → old.ownerEmail = item.ownerEmail) : Stamped now items (items.insert id item) := by
  intro other
  rw [Dict.get?_insert]
  split
  · rename_i own
    subst own
    exact .inr ⟨item, rfl, stamp, owner⟩
  · exact .inl rfl

theorem getLeahItem_some {id : String} {item : Item} (found : getLeahItem items ownerEmail id = some item) :
    items.get? id = some item ∧ item.ownerEmail = ownerEmail := by
  obtain ⟨held, own⟩ := Option.filter_eq_some_iff.mp found
  exact ⟨held, of_decide_eq_true own⟩

theorem stamped_upsert {write : Write} (written : upsertLeahItem items ownerEmail write now = some after) : Stamped now items after := by
  unfold upsertLeahItem at written
  dsimp only at written
  split at written
  · rename_i id item found
    obtain ⟨named, -, mapped⟩ := Option.bind_eq_some_iff.mp found
    obtain ⟨row, held, same⟩ := Option.map_eq_some_iff.mp mapped
    cases same
    split at written
    · cases written
    cases written
    refine stamped_insert rfl fun old there => ?_
    obtain ⟨there', own⟩ := getLeahItem_some held
    cases there.symm.trans there'
    exact own
  · split at written
    · -- the indexes make it a row of the same owner
      rename_i id item found
      cases written
      refine stamped_insert rfl fun old there => ?_
      cases there.symm.trans (Dict.mem_entries.mp (List.mem_of_find?_eq_some found))
      have same := List.find?_some found
      unfold Item.sameExternal at same
      exact (of_decide_eq_true same).1
    · split at written
      · cases written
      rename_i absent
      cases written
      exact stamped_insert rfl fun old there => absurd (by rw [Dict.contains, there]; rfl) absent

theorem stamped_upsertAll (deviceId : String) (writes : List Write) :
    Stamped now items (upsertAll ownerEmail deviceId now writes items).1 := by
  induction writes generalizing items with
  | nil => exact .refl now items
  | cons write rest ih =>
    unfold upsertAll
    split
    · rename_i next written
      exact (stamped_upsert written).trans ih
    · exact .refl now items

theorem stamped_reconciled (deviceId : String) (request : LeahAgentSyncRequest) :
    Stamped now items (reconciled ownerEmail deviceId request items now) := by
  unfold reconciled
  split
  · split
    · intro id
      rw [reconcileLeahEventSnapshot, Dict.get?_mapValues]
      cases held : items.get? id with
      | none => exact .inl rfl
      | some item =>
        rw [Option.map_some]
        split
        · exact .inr ⟨_, rfl, rfl, fun old same => by cases same; rfl⟩
        · exact .inl rfl
    · exact .refl now items
  · exact .refl now items

theorem stamped_delete (id : String) : Stamped now items (deleteLeahItem items ownerEmail id now) := by
  unfold deleteLeahItem
  split
  · rename_i item found
    refine stamped_insert rfl fun old there => ?_
    cases there.symm.trans (getLeahItem_some found).1
    rfl
  · exact .refl now items

theorem stamped_sync (deviceId : String) (request : LeahAgentSyncRequest) (cursor : Option Int) :
    Stamped now items (sync ownerEmail deviceId request items now cursor).1 := by
  have stored := @stamped_upsertAll now items ownerEmail deviceId request.items
  unfold sync
  split
  all_goals
    rename_i whole
    rw [whole] at stored
  · exact stored
  · exact stored.trans (stamped_reconciled deviceId request)

theorem mem_listLeahChanges {since : Option Int} {entry : String × Item} : entry ∈ listLeahChanges items ownerEmail since ↔
    items.get? entry.1 = some entry.2 ∧ entry.2.ownerEmail = ownerEmail ∧ (since.all fun since => since < entry.2.updatedAt) = true := by
  unfold listLeahChanges
  rw [mem_stableSort, List.mem_filter, Dict.mem_entries, decide_eq_true_eq]

/-- What a sync answers with: rows of its owner, and among them all that changed since the cursor. -/
theorem changes_spec (request : LeahAgentSyncRequest) (cursor : Option Int) :
    (∀ entry ∈ changes ownerEmail request items cursor, items.get? entry.1 = some entry.2 ∧ entry.2.ownerEmail = ownerEmail) ∧
      ∀ entry ∈ listLeahChanges items ownerEmail cursor, entry ∈ changes ownerEmail request items cursor := by
  have listed : ∀ entry ∈ listLeahChanges items ownerEmail cursor, items.get? entry.1 = some entry.2 ∧ entry.2.ownerEmail = ownerEmail :=
    fun entry member => ⟨(mem_listLeahChanges.mp member).1, (mem_listLeahChanges.mp member).2.1⟩
  unfold changes
  dsimp only
  split
  · exact ⟨listed, fun _ member => member⟩
  · refine ⟨fun entry member => ?_, fun entry member => mem_stableSort.mpr (List.mem_append_left _ member)⟩
    rcases List.mem_append.mp (mem_stableSort.mp member) with among | replayed
    · exact listed entry among
    · have deleted := (List.mem_filter.mp replayed).1
      unfold listLeahDeletedChanges at deleted
      rw [mem_stableSort, List.mem_filter, Dict.mem_entries, decide_eq_true_eq] at deleted
      exact ⟨deleted.1, deleted.2.1⟩

/-- What the items that a device was told are worth: each is still a row of its owner, and every row of its owner that is
no newer than its cursor is among them as it stands. -/
structure Mirrors (items : Dict String Item) (ownerEmail : String) (clock : Int) (cursor : Option Int) (told : Dict String Item) : Prop where
  past : ∀ since, cursor = some since → since < clock
  known : ∀ id item, told.get? id = some item → ∃ row, items.get? id = some row ∧ row.ownerEmail = ownerEmail
  current : ∀ since, cursor = some since → ∀ id item, items.get? id = some item → item.ownerEmail = ownerEmail →
    item.updatedAt ≤ since → told.get? id = some item

def Exact (items : Dict String Item) (ownerEmail : String) (told : Dict String Item) : Prop :=
  ∀ id item, told.get? id = some item ↔ items.get? id = some item ∧ item.ownerEmail = ownerEmail

structure Sound (ownerOf : String → String) (clock : Int) (state : State) : Prop where
  stamps : ∀ id item, state.items.get? id = some item → item.updatedAt < clock
  mirrors : ∀ deviceId, Mirrors state.items (ownerOf deviceId) clock (state.cursors deviceId) (state.told deviceId)

variable {clock next : Int} {cursor : Option Int} {told : Dict String Item} {ownerOf : String → String} {state : State}

theorem Mirrors.rows (mirrors : Mirrors before ownerEmail clock cursor told) (late : clock ≤ now) (early : now < next)
    (stamped : Stamped now before after) : Mirrors after ownerEmail next cursor told where
  past since held := ((mirrors.past since held).trans_le late).trans early
  known id item held := by
    obtain ⟨row, there, owner⟩ := mirrors.known id item held
    rcases stamped id with same | ⟨written, found, -, kept⟩
    · exact ⟨row, same.trans there, owner⟩
    · exact ⟨written, found, (kept row there).symm.trans owner⟩
  current since held id item there owner old := by
    rcases stamped id with same | ⟨_, found, stamp, -⟩
    · exact mirrors.current since held id item (same ▸ there) owner old
    · -- a row that was written now is newer than every cursor
      cases there.symm.trans found
      have := mirrors.past since held
      omega

theorem Sound.rows (sound : Sound ownerOf clock state) (late : clock ≤ now) (early : now < next)
    (stamped : Stamped now state.items after) : Sound ownerOf next { state with items := after } where
  stamps id item there := by
    rcases stamped id with same | ⟨_, found, stamp, -⟩
    · exact (sound.stamps id item (same ▸ there)).trans_le (late.trans early.le)
    · cases there.symm.trans found
      exact stamp.trans_lt early
  mirrors deviceId := (sound.mirrors deviceId).rows late early stamped

theorem get?_told {answer : List (String × Item)} (rows : ∀ entry ∈ answer, items.get? entry.1 = some entry.2) (id : String) :
    (answer.foldl (fun told entry => told.insert entry.1 entry.2) told).get? id =
      if id ∈ answer.map Prod.fst then items.get? id else told.get? id := by
  induction answer generalizing told with
  | nil => simp
  | cons entry rest ih =>
    rw [List.foldl_cons, ih fun other member => rows other (List.mem_cons_of_mem _ member), Dict.get?_insert]
    have row := rows entry List.mem_cons_self
    by_cases own : id = entry.1
    · simp [own, row]
    · rw [if_neg own, List.map_cons]
      simp only [List.mem_cons, own, false_or]

theorem Mirrors.received (mirrors : Mirrors items ownerEmail clock cursor told) (request : LeahAgentSyncRequest) :
    Exact items ownerEmail ((changes ownerEmail request items cursor).foldl (fun told entry => told.insert entry.1 entry.2) told) := by
  obtain ⟨rows, complete⟩ := changes_spec request cursor
  have kept : ∀ id item, id ∉ (changes ownerEmail request items cursor).map Prod.fst → items.get? id = some item →
      item.ownerEmail = ownerEmail → told.get? id = some item := by
    intro id item absent there owner
    have unchanged : ¬ (cursor.all fun since => since < item.updatedAt) = true := fun changed =>
      absent (List.mem_map_of_mem (complete (id, item) (mem_listLeahChanges.mpr ⟨there, owner, changed⟩)))
    cases cursor with
    | none => exact absurd rfl unchanged
    | some since => exact mirrors.current since rfl id item there owner (Int.not_lt.mp fun newer => unchanged (decide_eq_true newer))
  intro id item
  rw [get?_told fun entry member => (rows entry member).1]
  by_cases member : id ∈ (changes ownerEmail request items cursor).map Prod.fst
  · rw [if_pos member]
    refine ⟨fun there => ⟨there, ?_⟩, fun both => both.1⟩
    obtain ⟨entry, among, rfl⟩ := List.mem_map.mp member
    cases there.symm.trans (rows entry among).1
    exact (rows entry among).2
  · rw [if_neg member]
    refine ⟨fun held => ?_, fun both => kept id item member both.1 both.2⟩
    obtain ⟨row, there, owner⟩ := mirrors.known id item held
    cases held.symm.trans (kept id row member there owner)
    exact ⟨there, owner⟩

theorem Exact.mirrors (exact : Exact items ownerEmail told) (early : now < next) : Mirrors items ownerEmail next (some now) told where
  past _ held := Option.some.inj held ▸ early
  known id item held := ⟨item, (exact id item).mp held⟩
  current _ _ id item there owner _ := (exact id item).mpr ⟨there, owner⟩

theorem sound_synced (sound : Sound ownerOf clock state) (late : clock ≤ now) (early : now < next) (deviceId : String)
    (request : LeahAgentSyncRequest) (received : Bool) :
    Sound ownerOf next (perform ownerOf state ⟨.sync deviceId request received, now⟩) ∧
      (received = true → (sync (ownerOf deviceId) deviceId request state.items now (state.cursors deviceId)).2.isSome →
        Exact (perform ownerOf state ⟨.sync deviceId request received, now⟩).items (ownerOf deviceId)
          ((perform ownerOf state ⟨.sync deviceId request received, now⟩).told deviceId)) := by
  have rows := sound.rows late early (@stamped_sync now state.items (ownerOf deviceId) deviceId request (state.cursors deviceId))
  unfold perform
  dsimp only
  unfold sync at rows ⊢
  split at rows
  · exact ⟨rows, fun _ answered => by cases answered⟩
  dsimp only
  cases received with
  | false => exact ⟨rows, fun never => by cases never⟩
  | true =>
    have exact := (rows.mirrors deviceId).received request
    refine ⟨⟨rows.stamps, fun other => ?_⟩, fun _ _ => ?_⟩
    · by_cases own : other = deviceId
      · subst own
        simp only [if_true, Function.update_self]
        exact exact.mirrors early
      · simp only [if_true, Function.update_of_ne own]
        exact rows.mirrors other
    · simp only [if_true, Function.update_self]
      exact exact

theorem Sound.perform (sound : Sound ownerOf clock state) {timed : Timed} (late : clock ≤ timed.now) (early : timed.now < next) :
    Sound ownerOf next (perform ownerOf state timed) := by
  obtain ⟨call, now⟩ := timed
  have unwritten := sound.rows late early (.refl now state.items)
  have written : ∀ ownerEmail write, Sound ownerOf next { state with items := (upsertLeahItem state.items ownerEmail write now).getD state.items } := by
    intro ownerEmail write
    cases done : upsertLeahItem state.items ownerEmail write now with
    | none => exact unwritten
    | some after => exact sound.rows late early (stamped_upsert done)
  cases call with
  | sync deviceId request received => exact (sound_synced sound late early deviceId request received).1
  | createLeahItem ownerEmail fresh payload => exact written ownerEmail _
  | updateLeahItem ownerEmail id payload =>
    unfold Leah.perform
    dsimp only
    split
    · exact unwritten
    · exact written ownerEmail _
  | deleteLeahItem ownerEmail id => exact sound.rows late early (stamped_delete id)

def Rising (calls : List Timed) : Prop := (calls.map Timed.now).Pairwise (· < ·)

theorem Rising.front {front : List Timed} {last : Timed} (rising : Rising (front ++ [last])) :
    Rising front ∧ ∀ timed ∈ front, timed.now < last.now := by
  unfold Rising at rising
  rw [List.map_append, List.pairwise_append] at rising
  exact ⟨rising.1, fun timed member => rising.2.2 _ (List.mem_map_of_mem member) _ (List.mem_singleton_self _)⟩

theorem sound_run {calls : List Timed} (rising : Rising calls) (ended : ∀ timed ∈ calls, timed.now < clock) :
    Sound ownerOf clock (run ownerOf calls) := by
  induction calls using List.reverseRecOn generalizing clock with
  | nil =>
    constructor
    · exact fun _ _ held => by cases held
    · exact fun _ => ⟨fun _ held => (by cases held), fun _ _ held => (by cases held), fun _ held => (by cases held)⟩
  | append_singleton before last ih =>
    -- `before` is sound for every clock past it, hence for that of the last request
    rw [run, List.foldl_append]
    exact (ih rising.front.1 rising.front.2).perform le_rfl (ended last (by simp))

/-- Where each request is served whole and later than those before it, whatever answers were lost on the way, a device that has
the answer of its sync has been told of every item of its owner as it stands, and of no others. -/
theorem sync_exact {calls before : List Timed} {deviceId : String} {request : LeahAgentSyncRequest}
    (last : calls = before ++ [⟨.sync deviceId request true, now⟩]) (rising : Rising calls)
    (answered : (sync (ownerOf deviceId) deviceId request (run ownerOf before).items now ((run ownerOf before).cursors deviceId)).2.isSome) :
    Exact (run ownerOf calls).items (ownerOf deviceId) ((run ownerOf calls).told deviceId) := by
  subst last
  have sound : Sound ownerOf now (run ownerOf before) := sound_run rising.front.1 rising.front.2
  rw [run, List.foldl_append]
  exact (sound_synced sound le_rfl (Int.lt_succ now) deviceId request true).2 rfl answered

def boardSynced : List Timed :=
  [⟨.createLeahItem "owner" "a" { kind := .event, title := "Board" }, 1⟩, ⟨.sync "mac" {} true, 2⟩]

/-- An event of the site reaches the Mac of its owner. -/
theorem sync_exact_board : Exact (run (fun _ => "owner") boardSynced).items "owner" ((run (fun _ => "owner") boardSynced).told "mac") :=
  @sync_exact 2 (fun _ => "owner") boardSynced [_] "mac" {} rfl (by simp [Rising, boardSynced]) rfl

end Mirrors

end C3po.Leah
