import Mathlib.Data.Finset.Card
import Mathlib.Data.Prod.Lex
import Mathlib.Data.String.Basic
import C3po.Library.StableSort
import C3po.Realtime.Candles

/-! The symbols that the realtime stream follows, group by group, and the lease of the one group that
must never cost another its symbols. Every clock reading is given where it is taken.
-/

set_option autoImplicit false

namespace C3po.Realtime
open C3po.Library

structure Group where
  priority : Int
  setAt : ℚ
  symbols : List String
  deriving DecidableEq, Repr

structure Lease where
  deadline : ℚ
  capacity : Int
  incremental : ℕ
  deriving DecidableEq, Repr

inductive Reason where
  | off
  | removed
  | stopped
  | leaseExpired
  | capacityChanged
  | capacityExceeded
  | awaitingFeedEvidence
  | emptyInventory
  deriving DecidableEq, Repr

inductive Refusal where
  | groupRequiresLease
  | leaseInvalid
  | controllerStopped
  | capacityExceeded
  deriving DecidableEq, Repr

structure Groups where
  groups : Dict String Group := Dict.empty
  lease : Option Lease := none
  generation : ℕ := 0
  reason : Reason := .off
  /-- When a live lease was last checked. -/
  checkedAt : Option ℚ := none

def v2Group : String := "r2d2-v2-live"

/-- The first of each, in their order. -/
def uniques (symbols : List String) : List String := symbols.foldl (fun seen symbol => if symbol ∈ seen then seen else seen ++ [symbol]) []

def withoutSuffix (suffix text : String) : String :=
  if suffix.toList <:+ text.toList then String.ofList (text.toList.take (text.toList.length - suffix.toList.length)) else text

def unionOf (groups : Dict String Group) : List String := (groups.entries.flatMap fun entry => entry.2.symbols).dedup

namespace Groups

def union (state : Groups) : List String := unionOf state.groups

/-- The symbols of the groups besides the leased one. -/
def others (state : Groups) : List String := unionOf (state.groups.erase v2Group)

/-- The leased group goes, and an earlier reason stays where it was gone already. -/
def dropV2 (state : Groups) (reason : Reason) : Groups :=
  if state.lease = none ∧ state.groups.get? v2Group = none then
    { state with reason := if reason = .removed then state.reason else reason }
  else { state with groups := state.groups.erase v2Group, lease := none, reason }

section Calls
variable (setting : Setting) (maxSymbols : Int)

def checkV2 (state : Groups) (now : ℚ) : Groups :=
  match state.lease with
  | none => state
  | some lease =>
      if lease.deadline ≤ now then state.dropV2 .leaseExpired
      else if min 550 (min lease.capacity maxSymbols) < state.union.length then state.dropV2 .capacityChanged
      else { state with checkedAt := some now }

def cleaned (symbols : List String) : List String :=
  uniques ((symbols.filter fun symbol => symbol ≠ "" ∧ setting.strip symbol ≠ "").map fun symbol =>
    withoutSuffix ".US" (setting.upper (setting.strip symbol)))

def setGroup (state : Groups) (name : String) (symbols : List String) (priority : Int) (setAt now : ℚ) : Groups × Except Refusal Unit :=
  let symbols := cleaned setting symbols
  if name = v2Group then
    if symbols ≠ [] then (state, .error .groupRequiresLease) else (state.dropV2 .removed, .ok ())
  else
    let groups := if symbols ≠ [] then state.groups.insert name ⟨priority, setAt, symbols⟩ else state.groups.erase name
    (({ state with groups }).checkV2 maxSymbols now, .ok ())

/-- A request of the leased group; a capacity that is no integer and a time that is not finite are none. -/
structure Request where
  symbols : List (Option String)
  capacity : Option Int
  ttl : Option ℚ
  stopped : Bool
  deriving DecidableEq, Repr

def alphanumeric (letter : Char) : Bool := ('A' ≤ letter && letter ≤ 'Z') || ('0' ≤ letter && letter ≤ '9')

def symbolLike (text : String) : Bool :=
  match text.toList with
  | [] => false
  | first :: rest => alphanumeric first && rest.length ≤ 19 && rest.all fun letter => alphanumeric letter || letter = '.' || letter = '-'

/-- The capacity and the time of a request, where they are valid. -/
def Request.terms (request : Request) : Option (Int × ℚ) :=
  match request.capacity, request.ttl with
  | some capacity, some ttl =>
      if 1 ≤ capacity ∧ capacity ≤ 550 ∧ 0 < ttl ∧ ttl ≤ 30 ∧ request.symbols.all (·.any symbolLike) then some (capacity, ttl) else none
  | _, _ => none

def Request.names (request : Request) : List String := request.symbols.reduceOption.dedup.insertionSort (· ≤ ·)

/-- The clock readings of a request, in the order they are taken. -/
structure Readings where
  checked : ℚ
  setAt : ℚ
  leased : ℚ
  answered : ℚ
  deriving DecidableEq, Repr

structure Status where
  status : Reason
  generation : ℕ
  desiredCount : ℕ
  incrementalCount : ℕ
  capacity : Option Int
  deriving DecidableEq, Repr

def v2Status (state : Groups) (now : ℚ) : Groups × Status :=
  let state := state.checkV2 maxSymbols now
  let names := ((state.groups.get? v2Group).map Group.symbols).getD []
  (state,
    { status := state.reason
      generation := state.generation
      desiredCount := names.length
      incrementalCount := (state.lease.map Lease.incremental).getD 0
      capacity := state.lease.map Lease.capacity })

def setV2Group (state : Groups) (request : Request) (readings : Readings) : Groups × Except Refusal Status :=
  match request.terms with
  | none => (state, .error .leaseInvalid)
  | some (capacity, ttl) =>
      let names := request.names
      if request.stopped then (state.dropV2 .stopped, .error .controllerStopped)
      else
        let state := state.checkV2 maxSymbols readings.checked
        let effective := min 550 (min capacity maxSymbols)
        if effective < (state.others ++ names).dedup.length then (state.dropV2 .capacityExceeded, .error .capacityExceeded)
        else
          let same := (state.groups.get? v2Group).any fun old => old.symbols = names
          let leased : Groups :=
            { state with
              groups := state.groups.insert v2Group ⟨190, readings.setAt, names⟩
              lease := some ⟨readings.leased + ttl, effective, (names.filter (· ∉ state.others)).length⟩
              generation := if same then state.generation else state.generation + 1
              reason := if names ≠ [] then .awaitingFeedEvidence else .emptyInventory }
          let answer := v2Status maxSymbols leased readings.answered
          (answer.1, .ok answer.2)

/-- The symbols in order, each once, up to a limit that is reached by one of them. -/
def select (limit : Int) : List String → List String → List String
  | selected, [] => selected
  | selected, symbol :: rest =>
      if symbol ∈ selected then select limit selected rest
      else if limit ≤ (selected ++ [symbol]).length then selected ++ [symbol]
      else select limit (selected ++ [symbol]) rest

/-- The later and the more important a group, the earlier its symbols. -/
def ranked (groups : Dict String Group) : List Group :=
  stableSort (fun group => toLex (OrderDual.toDual group.priority, OrderDual.toDual group.setAt)) (groups.entries.map Prod.snd)

def desiredSymbols (state : Groups) (now : ℚ) : Groups × List String :=
  let state := state.checkV2 maxSymbols now
  (state, select maxSymbols [] ((ranked state.groups).flatMap Group.symbols))

end Calls

end Groups

/-- A call on the groups; `look` is any of those that check the lease and change nothing else. -/
inductive Operation where
  | setGroup (name : String) (symbols : List String) (priority : Int) (setAt now : ℚ)
  | setV2Group (request : Groups.Request) (readings : Groups.Readings)
  | look (now : ℚ)

def Operation.apply (setting : Setting) (maxSymbols : Int) (state : Groups) : Operation → Groups
  | .setGroup name symbols priority setAt now => (state.setGroup setting maxSymbols name symbols priority setAt now).1
  | .setV2Group request readings => (state.setV2Group maxSymbols request readings).1
  | .look now => state.checkV2 maxSymbols now

def Groups.after (setting : Setting) (maxSymbols : Int) (operations : List Operation) : Groups :=
  operations.foldl (fun state operation => operation.apply setting maxSymbols state) {}

/-! A leased group never costs another its symbols. -/

theorem mem_select {limit : Int} {selected items : List String} (distinct : selected.Nodup)
    (bound : ((selected ++ items).toFinset.card : Int) ≤ limit) : ∀ symbol ∈ selected ++ items, symbol ∈ Groups.select limit selected items := by
  induction items generalizing selected with
  | nil =>
    intro symbol member
    rwa [List.append_nil] at member
  | cons first rest ih =>
    unfold Groups.select
    split
    · rename_i seen
      have same : (selected ++ first :: rest).toFinset = (selected ++ rest).toFinset := by
        ext symbol
        simp only [List.mem_toFinset, List.mem_append, List.mem_cons]
        constructor
        · rintro (early | rfl | late)
          · exact .inl early
          · exact .inl seen
          · exact .inr late
        · rintro (early | late)
          · exact .inl early
          · exact .inr (.inr late)
      rw [same] at bound
      intro symbol member
      have inside := List.mem_toFinset.mpr member
      rw [same] at inside
      exact ih distinct bound symbol (List.mem_toFinset.mp inside)
    · rename_i fresh
      have grown : (selected ++ [first]).Nodup :=
        List.nodup_append.mpr ⟨distinct, List.nodup_singleton first, fun symbol member other last => by
          rw [List.mem_singleton.mp last]
          rintro rfl
          exact fresh member⟩
      have split : selected ++ first :: rest = selected ++ [first] ++ rest := by rw [List.append_assoc, List.singleton_append]
      split
      · rename_i full
        -- as many as the limit are selected already, so there are no others
        have within : (selected ++ [first]).toFinset ⊆ (selected ++ first :: rest).toFinset := by
          intro symbol member
          rw [split]
          exact List.mem_toFinset.mpr (List.mem_append_left rest (List.mem_toFinset.mp member))
        have card : (selected ++ [first]).toFinset.card = (selected ++ [first]).length := List.toFinset_card_of_nodup grown
        have same : (selected ++ [first]).toFinset = (selected ++ first :: rest).toFinset :=
          Finset.eq_of_subset_of_card_le within (by omega)
        intro symbol member
        have inside := List.mem_toFinset.mpr member
        rw [← same] at inside
        exact List.mem_toFinset.mp inside
      · rw [split] at bound ⊢
        exact ih grown bound

section Frames
variable {maxSymbols : Int} {state : Groups} {reason : Reason} {now : ℚ} {name : String}

theorem dropV2_lease : (state.dropV2 reason).lease = none := by
  unfold Groups.dropV2
  split
  · rename_i gone
    exact gone.1
  · rfl

theorem dropV2_absent : (state.dropV2 reason).groups.get? v2Group = none := by
  unfold Groups.dropV2
  split
  · rename_i gone
    exact gone.2
  · show (state.groups.erase v2Group).get? v2Group = none
    rw [Dict.get?_erase, if_pos rfl]

theorem dropV2_frame (other : name ≠ v2Group) : (state.dropV2 reason).groups.get? name = state.groups.get? name := by
  unfold Groups.dropV2
  split
  · rfl
  · show (state.groups.erase v2Group).get? name = _
    rw [Dict.get?_erase, if_neg other]

theorem checkV2_cases (state : Groups) : state.checkV2 maxSymbols now = state ∧ state.lease = none ∨
    (∃ reason, state.checkV2 maxSymbols now = state.dropV2 reason) ∨
      ∃ lease, state.lease = some lease ∧ now < lease.deadline ∧ (state.union.length : Int) ≤ min 550 (min lease.capacity maxSymbols) ∧
        state.checkV2 maxSymbols now = { state with checkedAt := some now } := by
  unfold Groups.checkV2
  split
  · rename_i gone
    exact .inl ⟨rfl, gone⟩
  · rename_i lease live
    split
    · exact .inr (.inl ⟨_, rfl⟩)
    · rename_i early
      split
      · exact .inr (.inl ⟨_, rfl⟩)
      · rename_i fits
        exact .inr (.inr ⟨lease, live, not_le.mp early, not_lt.mp fits, rfl⟩)

theorem checkV2_frame (other : name ≠ v2Group) : (state.checkV2 maxSymbols now).groups.get? name = state.groups.get? name := by
  rcases checkV2_cases state with ⟨same, -⟩ | ⟨reason, dropped⟩ | ⟨lease, -, -, -, kept⟩
  · rw [same]
  · rw [dropped, dropV2_frame other]
  · rw [kept]

end Frames

/-- A live lease fits all the groups within its capacity and has not passed its deadline at its last
check; the leased group stands under a lease only. -/
structure Fits (maxSymbols : Int) (state : Groups) : Prop where
  capacity : ∀ lease, state.lease = some lease → (state.union.length : Int) ≤ min 550 (min lease.capacity maxSymbols)
  deadline : ∀ lease, state.lease = some lease → ∃ checked, state.checkedAt = some checked ∧ checked < lease.deadline
  leased : state.lease = none → state.groups.get? v2Group = none

section Steps
variable {setting : Setting} {maxSymbols : Int} {state : Groups} {now : ℚ}

theorem dropV2_fits (reason : Reason) : Fits maxSymbols (state.dropV2 reason) where
  capacity _ live := nomatch dropV2_lease.symm.trans live
  deadline _ live := nomatch dropV2_lease.symm.trans live
  leased _ := dropV2_absent

theorem checkV2_fits (leased : state.lease = none → state.groups.get? v2Group = none) : Fits maxSymbols (state.checkV2 maxSymbols now) := by
  rcases checkV2_cases state with ⟨same, gone⟩ | ⟨reason, dropped⟩ | ⟨lease, live, early, fits, kept⟩
  · rw [same]
    exact ⟨fun lease live => (nomatch gone.symm.trans live), fun lease live => (nomatch gone.symm.trans live), leased⟩
  · rw [dropped]
    exact dropV2_fits reason
  · rw [kept]
    refine ⟨fun other same => ?_, fun other same => ?_, fun gone => nomatch live.symm.trans gone⟩
    · cases live.symm.trans same
      exact fits
    · cases live.symm.trans same
      exact ⟨now, rfl, early⟩

theorem setGroup_fits (fits : Fits maxSymbols state) (name : String) (symbols : List String) (priority : Int) (setAt : ℚ) :
    Fits maxSymbols (state.setGroup setting maxSymbols name symbols priority setAt now).1 := by
  unfold Groups.setGroup
  dsimp only
  split
  · split
    · exact fits
    · exact dropV2_fits _
  · rename_i other
    refine checkV2_fits fun gone => ?_
    have absent := fits.leased gone
    dsimp only
    split
    · rw [Dict.get?_insert, if_neg (Ne.symm other), absent]
    · rw [Dict.get?_erase, if_neg (Ne.symm other), absent]

theorem setV2Group_cases (maxSymbols : Int) (state : Groups) (request : Groups.Request) (readings : Groups.Readings) :
    (∃ refusal, state.setV2Group maxSymbols request readings = (state, .error refusal)) ∨
      (∃ refusal reason, state.setV2Group maxSymbols request readings = (state.dropV2 reason, .error refusal)) ∨
      (∃ refusal reason,
        state.setV2Group maxSymbols request readings = ((state.checkV2 maxSymbols readings.checked).dropV2 reason, .error refusal)) ∨
      ∃ (leased : Groups) (lease : Lease) (status : Groups.Status),
        state.setV2Group maxSymbols request readings = (leased.checkV2 maxSymbols readings.answered, .ok status) ∧ leased.lease = some lease := by
  unfold Groups.setV2Group
  split
  · exact .inl ⟨_, rfl⟩
  · dsimp only
    split
    · exact .inr (.inl ⟨_, _, rfl⟩)
    · split
      · exact .inr (.inr (.inl ⟨_, _, rfl⟩))
      · have answer {leased : Groups} {lease : Lease} (live : leased.lease = some lease) : ∃ (leased' : Groups) (lease : Lease) (status : Groups.Status),
            ((leased.v2Status maxSymbols readings.answered).1, Except.ok (leased.v2Status maxSymbols readings.answered).2) =
              (leased'.checkV2 maxSymbols readings.answered, (.ok status : Except Refusal Groups.Status)) ∧ leased'.lease = some lease :=
          ⟨leased, lease, _, rfl, live⟩
        exact .inr (.inr (.inr (answer rfl)))

theorem setV2Group_fits (fits : Fits maxSymbols state) (request : Groups.Request) (readings : Groups.Readings) :
    Fits maxSymbols (state.setV2Group maxSymbols request readings).1 := by
  rcases setV2Group_cases maxSymbols state request readings with ⟨_, same⟩ | ⟨_, reason, dropped⟩ | ⟨_, reason, dropped⟩ | ⟨leased, lease, _, checked, live⟩
  · rw [same]
    exact fits
  · rw [dropped]
    exact dropV2_fits reason
  · rw [dropped]
    exact dropV2_fits reason
  · rw [checked]
    exact checkV2_fits fun gone => nomatch live.symm.trans gone

theorem apply_fits (fits : Fits maxSymbols state) (operation : Operation) : Fits maxSymbols (operation.apply setting maxSymbols state) := by
  cases operation with
  | setGroup name symbols priority setAt now => exact setGroup_fits fits name symbols priority setAt
  | setV2Group request readings => exact setV2Group_fits fits request readings
  | look now => exact checkV2_fits fits.leased

theorem desired_complete {lease : Lease} (fits : Fits maxSymbols state) (live : state.lease = some lease) {name : String} {group : Group}
    (found : state.groups.get? name = some group) {symbol : String} (member : symbol ∈ group.symbols) :
    symbol ∈ Groups.select maxSymbols [] ((Groups.ranked state.groups).flatMap Group.symbols) := by
  have same : ((Groups.ranked state.groups).flatMap Group.symbols).toFinset = state.union.toFinset := by
    ext other
    unfold Groups.ranked Groups.union unionOf
    simp only [List.mem_toFinset, List.mem_flatMap, mem_stableSort, List.mem_dedup, List.mem_map, exists_exists_and_eq_and]
  have card : ((Groups.ranked state.groups).flatMap Group.symbols).toFinset.card = state.union.length := by
    rw [same]
    exact List.toFinset_card_of_nodup (List.nodup_dedup _)
  apply mem_select List.nodup_nil
  · rw [List.nil_append, card]
    exact (fits.capacity lease live).trans ((min_le_right _ _).trans (min_le_right _ _))
  · rw [List.nil_append, List.mem_flatMap]
    exact ⟨group, mem_stableSort.mpr (List.mem_map.mpr ⟨(name, group), Dict.mem_entries.mpr found, rfl⟩), member⟩

end Steps

/-- What the lease promises the other groups. -/
structure Harmless (maxSymbols : Int) (state : Groups) : Prop where
  fits : Fits maxSymbols state
  desired : ∀ now lease, (state.desiredSymbols maxSymbols now).1.lease = some lease →
    ∀ name group, (state.desiredSymbols maxSymbols now).1.groups.get? name = some group →
      ∀ symbol ∈ group.symbols, symbol ∈ (state.desiredSymbols maxSymbols now).2
  refused : ∀ request readings refusal, (state.setV2Group maxSymbols request readings).2 = .error refusal →
    (∀ name, name ≠ v2Group → (state.setV2Group maxSymbols request readings).1.groups.get? name = state.groups.get? name) ∧
      ((state.setV2Group maxSymbols request readings).1 = state ∨
        (state.setV2Group maxSymbols request readings).1.lease = none ∧
          (state.setV2Group maxSymbols request readings).1.groups.get? v2Group = none)

/-- After any calls on the groups, the lease costs no other group a symbol. -/
theorem lease_harmless (setting : Setting) (maxSymbols : Int) (operations : List Operation) :
    Harmless maxSymbols (Groups.after setting maxSymbols operations) := by
  have start : Fits maxSymbols {} := ⟨fun _ live => (nomatch live), fun _ live => (nomatch live), fun _ => rfl⟩
  have fits : Fits maxSymbols (Groups.after setting maxSymbols operations) := by
    unfold Groups.after
    generalize ({} : Groups) = state at start ⊢
    induction operations generalizing state with
    | nil => exact start
    | cons operation rest ih => exact ih _ (apply_fits start operation)
  refine ⟨fits, fun now lease live name group found symbol member => ?_, fun request readings refusal refused => ?_⟩
  · exact desired_complete (checkV2_fits fits.leased) live found member
  · rcases setV2Group_cases maxSymbols (Groups.after setting maxSymbols operations) request readings with
      ⟨_, same⟩ | ⟨_, reason, dropped⟩ | ⟨_, reason, dropped⟩ | ⟨leased, lease, _, checked, live⟩
    · rw [same]
      exact ⟨fun _ _ => rfl, .inl rfl⟩
    · rw [dropped]
      exact ⟨fun name other => dropV2_frame other, .inr ⟨dropV2_lease, dropV2_absent⟩⟩
    · rw [dropped]
      exact ⟨fun name other => (dropV2_frame other).trans (checkV2_frame other), .inr ⟨dropV2_lease, dropV2_absent⟩⟩
    · rw [checked] at refused
      cases refused

end C3po.Realtime
