import Mathlib.Tactic.Linarith
import C3po.Library.Dict
import C3po.Library.Interleaving

/-! The cache of provider fundamentals of one screener.

The attributes are read and written one at a time, and so are the entries of a dictionary. A
dictionary stays with whoever loaded it when another takes its place. What the overlay makes of a
payload is left to the caller; instants are microseconds.
-/

set_option autoImplicit false

namespace C3po.Fundamentals
open C3po.Library

variable (Payload : Type)

/-- A payload and the instant its answer arrived. -/
abbrev Entry := Payload × Int

/-- A payload of a symbol in an answer that arrived at an instant. -/
abbrev Arrival := String × Entry Payload

structure World where
  clock : Int
  dicts : ℕ → Dict String (Entry Payload)
  /-- How many dictionaries were made so far. -/
  allocated : ℕ
  /-- `_eodhd_cache` and `_eodhd_cache_expires_at`. -/
  cache : ℕ
  expiresAt : Option Int
  /-- The symbols of each ingestion run. -/
  ingestion : List (List String)
  /-- History, read by nothing that is served: what arrived, and whether some step so far strayed, that is
  lost a symbol received before, kept an answer too long before it installed it, or extended the expiry
  past what stood in the cache. -/
  arrivals : List (Arrival Payload)
  strayed : Bool

/-- The answer of the provider; none where it raised. -/
abbrev Answer := Option (List (String × Payload))

abbrev Script (A : Type) := Program (World Payload) (Answer Payload) A

inductive Call where
  | fundamentals (symbols : List String)
  | refresh (symbols : List String)
  | wait (microseconds : ℕ)

def auxiliaryCacheHours : Int := 18 * 3600 * 1000000

variable {Payload}

namespace World

def initial (clock : Int) : World Payload := ⟨clock, fun _ => .empty, 1, 0, none, [], [], false⟩

/-- An empty dictionary in the place of the cache. -/
def dropped (world : World Payload) : World Payload := { world with cache := world.allocated, allocated := world.allocated + 1 }

def installed (id : ℕ) (symbol : String) (entry : Entry Payload) (world : World Payload) : World Payload :=
  { world with
    dicts := fun other => if other = id then (world.dicts id).insert symbol entry else world.dicts other
    strayed := world.strayed || (entry.2 + auxiliaryCacheHours < world.clock) ||
      (id = world.cache && world.expiresAt.any fun expiry => entry.2 + auxiliaryCacheHours < expiry) }

def popped (id : ℕ) (symbol : String) (world : World Payload) : World Payload :=
  { world with dicts := fun other => if other = id then (world.dicts id).erase symbol else world.dicts other }

/-- The expiry a call that began at an instant sets. -/
def expiring (now : Int) (world : World Payload) : World Payload :=
  { world with
    expiresAt := some (now + auxiliaryCacheHours)
    strayed := world.strayed || (world.dicts world.cache).entries.any fun entry => entry.2.2 < now }

def arrived (known missing : List String) (payload : List (String × Payload)) (world : World Payload) : World Payload :=
  { world with
    arrivals := world.arrivals ++ payload.map fun item => (item.1, item.2, world.clock)
    strayed := world.strayed || missing.any fun symbol => symbol ∈ known && symbol ∉ payload.map Prod.fst }

/-- A fetch that raised. -/
def unanswered (known missing : List String) (world : World Payload) : World Payload :=
  { world with strayed := world.strayed || missing.any fun symbol => symbol ∈ known }

def begun (missing : List String) (world : World Payload) : World Payload := { world with ingestion := world.ingestion ++ [missing] }

end World

section Scripts

def lookup (symbol : String) : Script Payload (Option (Entry Payload)) := do
  let id ← Program.read World.cache
  Program.read fun world => (world.dicts id).get? symbol

def missingSymbols (symbols : List String) : Script Payload (List String) :=
  symbols.foldlM (fun missing symbol => do
    let entry ← lookup symbol
    pure (if entry.isSome then missing else missing ++ [symbol])) []

def install (received : Int) : List (String × Payload) → Script Payload Unit
  | [] => pure ()
  | (symbol, data) :: rest => do
    let id ← Program.read World.cache
    Program.write (World.installed id symbol (data, received)) fun _ => ()
    install received rest

/-- The fetch of the missing symbols; a failure is finished as one. -/
def fetch (now : Int) (known missing : List String) : Script Payload Unit := do
  Program.write (World.begun missing) fun _ => ()
  match ← Program.answer with
  | none => Program.write (World.unanswered known missing) fun _ => ()
  | some payload =>
    let received ← Program.write (World.arrived known missing payload) World.clock
    install received payload
    Program.write (World.expiring now) fun _ => ()

/-- The entries of the symbols in the dictionary that is the cache now. -/
def readEntries (id : ℕ) (symbols : List String) : Script Payload (List (Arrival Payload)) :=
  symbols.foldlM (fun entries symbol => do
    let entry ← Program.read fun world => (world.dicts id).get? symbol
    pure (entries ++ (entry.map fun entry => (symbol, entry)).toList)) []

/-- `cache_is_fresh`. -/
def cacheIsFresh (now : Int) : Script Payload Bool := do
  match ← Program.read World.expiresAt with
  | none => pure false
  | some _ => Program.read fun world => world.expiresAt.any fun expiry => now < expiry

/-- A stale cache is dropped. -/
def dropStale (now : Int) : Script Payload Unit := do
  let fresh ← cacheIsFresh now
  if fresh then pure () else Program.write World.dropped fun _ => ()

def fetchMissing (now : Int) (known missing : List String) : Script Payload Unit :=
  if missing = [] then pure () else fetch now known missing

/-- `_eodhd_fundamentals_with_receipts`, on its clean symbols. What was received before it began is noted
with its instant. -/
def fundamentalsWithReceipts (symbols : List String) : Script Payload (List (Arrival Payload)) := do
  let (now, known) ← Program.read fun world => (world.clock, world.arrivals.map Prod.fst)
  dropStale now
  let missing ← missingSymbols symbols
  fetchMissing now known missing
  let id ← Program.read World.cache
  readEntries id symbols

/-- The pops of `refresh_symbols`. -/
def popSymbols : List String → Script Payload Unit
  | [] => pure ()
  | symbol :: rest => do
    let id ← Program.read World.cache
    Program.write (World.popped id symbol) fun _ => ()
    popSymbols rest

def cleanSymbols (upper : String → String) (symbols : List String) : List String :=
  ((symbols.filter fun symbol => symbol ≠ "").map upper).eraseDups

def serve (upper : String → String) : Call → Script Payload (List (Arrival Payload))
  | .fundamentals symbols => fundamentalsWithReceipts (cleanSymbols upper symbols)
  | .refresh symbols => do
    popSymbols symbols
    pure []
  | .wait microseconds => do
    Program.write (fun world => { world with clock := world.clock + microseconds }) fun _ => ()
    pure []

end Scripts

end C3po.Fundamentals

/-! What the calls may do to the cache, step by step. -/

namespace C3po.Fundamentals
open C3po.Library

variable {Payload : Type}

/-- The pairs of the cache arrived, and while no step strayed the expiry is before the age of each. -/
structure Sound (world : World Payload) : Prop where
  arrived : ∀ id symbol entry, (world.dicts id).get? symbol = some entry → (symbol, entry) ∈ world.arrivals
  unmade : ∀ id, world.allocated ≤ id → world.dicts id = .empty
  made : world.cache < world.allocated
  timely : world.strayed = false → ∀ symbol entry expiry, (world.dicts world.cache).get? symbol = some entry →
    world.expiresAt = some expiry → expiry ≤ entry.2 + auxiliaryCacheHours

structure Moves (world next : World Payload) : Prop where
  sound : Sound next
  clock : world.clock ≤ next.clock
  arrivals : ∀ arrival ∈ world.arrivals, arrival ∈ next.arrivals
  strayed : world.strayed = true → next.strayed = true
  allocated : world.allocated ≤ next.allocated
  cache : next.cache = world.cache ∨ next.cache = world.allocated
  young : next.strayed = false → ∀ id symbol entry, (next.dicts id).get? symbol = some entry →
    (world.dicts id).get? symbol = some entry ∨ world.clock ≤ entry.2 + auxiliaryCacheHours

def cacheRules (Payload : Type) : Protocol (World Payload) (Answer Payload) where
  keeps := Sound
  moves := Moves
  allowed := fun _ _ => True
  kept := fun _ moves => moves.sound

variable {world next : World Payload}

theorem sound_initial (clock : Int) : Sound (World.initial clock : World Payload) where
  arrived := fun _ _ _ found => nomatch found
  unmade := fun _ _ => rfl
  made := Nat.zero_lt_one
  timely := fun _ _ _ _ found => nomatch found

section Steps

theorem dropped_moves (sound : Sound world) : Moves world world.dropped where
  sound := by
    refine ⟨sound.arrived, fun id later => sound.unmade id (Nat.le_of_succ_le later), Nat.lt_succ_self _, ?_⟩
    intro _ symbol entry _ found
    change (world.dicts world.allocated).get? symbol = some entry at found
    rw [sound.unmade _ (Nat.le_refl _)] at found
    cases found
  clock := Int.le_refl _
  arrivals := fun _ member => member
  strayed := id
  allocated := Nat.le_succ _
  cache := .inr rfl
  young := fun _ _ _ _ found => .inl found

theorem installed_moves (sound : Sound world) {id : ℕ} (made : id < world.allocated) {symbol : String} {entry : Entry Payload}
    (arrived : (symbol, entry) ∈ world.arrivals) : Moves world (world.installed id symbol entry) := by
  have found : ∀ other key held, ((world.installed id symbol entry).dicts other).get? key = some held →
      (world.dicts other).get? key = some held ∨ other = id ∧ key = symbol ∧ held = entry := by
    intro other key held read
    unfold World.installed at read
    dsimp only at read
    split at read
    · rename_i same
      subst same
      rw [Dict.get?_insert] at read
      split at read
      · rename_i own
        cases read
        exact .inr ⟨rfl, own, rfl⟩
      · exact .inl read
    · exact .inl read
  have steady : (world.installed id symbol entry).strayed = false → world.strayed = false ∧
      ¬ entry.2 + auxiliaryCacheHours < world.clock ∧
      (id = world.cache → ∀ expiry, world.expiresAt = some expiry → expiry ≤ entry.2 + auxiliaryCacheHours) := by
    intro same
    obtain ⟨first, late⟩ := Bool.or_eq_false_iff.mp same
    obtain ⟨before, slow⟩ := Bool.or_eq_false_iff.mp first
    refine ⟨before, of_decide_eq_false slow, ?_⟩
    intro own expiry set
    rw [own, set] at late
    simpa using late
  constructor
  · constructor
    · intro other key held read
      rcases found other key held read with earlier | ⟨_, rfl, rfl⟩
      · exact sound.arrived other key held earlier
      · exact arrived
    · intro other later
      change (if other = id then _ else world.dicts other) = _
      rw [if_neg (Nat.ne_of_gt (Nat.lt_of_lt_of_le made later))]
      exact sound.unmade other later
    · exact sound.made
    · intro same key held expiry read set
      obtain ⟨before, _, inTime⟩ := steady same
      rcases found _ key held read with earlier | ⟨own, rfl, rfl⟩
      · exact sound.timely before key held expiry earlier set
      · exact inTime own.symm expiry set
  · exact Int.le_refl _
  · exact fun _ member => member
  · intro before
    unfold World.installed
    dsimp only
    rw [before]
    rfl
  · exact Nat.le_refl _
  · exact .inl rfl
  · intro same other key held read
    obtain ⟨_, slow, _⟩ := steady same
    rcases found other key held read with earlier | ⟨_, rfl, rfl⟩
    · exact .inl earlier
    · exact .inr (Int.not_lt.mp slow)

theorem popped_moves (sound : Sound world) (id : ℕ) (symbol : String) : Moves world (world.popped id symbol) := by
  have found : ∀ other key held, ((world.popped id symbol).dicts other).get? key = some held →
      (world.dicts other).get? key = some held := by
    intro other key held read
    unfold World.popped at read
    dsimp only at read
    split at read
    · rename_i same
      subst same
      rw [Dict.get?_erase] at read
      split at read
      · cases read
      · exact read
    · exact read
  constructor
  · refine ⟨fun other key held read => sound.arrived other key held (found other key held read), ?_, sound.made, ?_⟩
    · intro other later
      change (if other = id then (world.dicts id).erase symbol else world.dicts other) = _
      split
      · rename_i same
        rw [← same, sound.unmade other later]
        rfl
      · exact sound.unmade other later
    · exact fun before key held expiry read set => sound.timely before key held expiry (found _ key held read) set
  · exact Int.le_refl _
  · exact fun _ member => member
  · exact fun before => before
  · exact Nat.le_refl _
  · exact .inl rfl
  · exact fun _ other key held read => .inl (found other key held read)

theorem expiring_moves (sound : Sound world) (now : Int) : Moves world (world.expiring now) where
  sound := by
    refine ⟨sound.arrived, sound.unmade, sound.made, ?_⟩
    intro same symbol entry expiry found set
    obtain ⟨_, none⟩ := Bool.or_eq_false_iff.mp same
    cases set
    have member := Dict.mem_entries.mpr found
    have young := List.any_eq_false.mp none _ member
    rw [decide_eq_true_eq] at young
    exact Int.add_le_add_right (Int.not_lt.mp young) _
  clock := Int.le_refl _
  arrivals := fun _ member => member
  strayed := by
    intro before
    unfold World.expiring
    dsimp only
    rw [before]
    rfl
  allocated := Nat.le_refl _
  cache := .inl rfl
  young := fun _ _ _ _ found => .inl found

theorem arrived_moves (sound : Sound world) (known missing : List String) (payload : List (String × Payload)) :
    Moves world (world.arrived known missing payload) where
  sound := by
    refine ⟨fun id symbol entry found => List.mem_append_left _ (sound.arrived id symbol entry found), sound.unmade, sound.made, ?_⟩
    intro same symbol entry expiry found set
    exact sound.timely (Bool.or_eq_false_iff.mp same).1 symbol entry expiry found set
  clock := Int.le_refl _
  arrivals := fun _ member => List.mem_append_left _ member
  strayed := by
    intro before
    unfold World.arrived
    dsimp only
    rw [before]
    rfl
  allocated := Nat.le_refl _
  cache := .inl rfl
  young := fun _ _ _ _ found => .inl found

theorem unanswered_moves (sound : Sound world) (known missing : List String) : Moves world (world.unanswered known missing) where
  sound := by
    refine ⟨sound.arrived, sound.unmade, sound.made, ?_⟩
    intro same symbol entry expiry found set
    exact sound.timely (Bool.or_eq_false_iff.mp same).1 symbol entry expiry found set
  clock := Int.le_refl _
  arrivals := fun _ member => member
  strayed := by
    intro before
    unfold World.unanswered
    dsimp only
    rw [before]
    rfl
  allocated := Nat.le_refl _
  cache := .inl rfl
  young := fun _ _ _ _ found => .inl found

theorem begun_moves (sound : Sound world) (missing : List String) : Moves world (world.begun missing) where
  sound := ⟨sound.arrived, sound.unmade, sound.made, sound.timely⟩
  clock := Int.le_refl _
  arrivals := fun _ member => member
  strayed := id
  allocated := Nat.le_refl _
  cache := .inl rfl
  young := fun _ _ _ _ found => .inl found

theorem waited_moves (sound : Sound world) (microseconds : ℕ) :
    Moves world { world with clock := world.clock + microseconds } where
  sound := ⟨sound.arrived, sound.unmade, sound.made, sound.timely⟩
  clock := by
    change world.clock ≤ world.clock + (microseconds : Int)
    omega
  arrivals := fun _ member => member
  strayed := id
  allocated := Nat.le_refl _
  cache := .inl rfl
  young := fun _ _ _ _ found => .inl found

end Steps

/-- While no step strayed, a dictionary holds nothing older than an instant less the hours of the cache. -/
def Young (instant : Int) (id : ℕ) (world : World Payload) : Prop :=
  world.strayed = false → ∀ symbol entry, (world.dicts id).get? symbol = some entry → instant ≤ entry.2 + auxiliaryCacheHours

section Later
variable (sound : Sound world) (later : (cacheRules Payload).Later world next)
include sound later

theorem later_arrivals {arrival : Arrival Payload} (member : arrival ∈ world.arrivals) : arrival ∈ next.arrivals :=
  @Protocol.Later.induct _ _ _ (fun other => arrival ∈ other.arrivals) _ _ later sound member
    fun _ held moves => moves.arrivals arrival held

theorem later_strayed (strayed : world.strayed = true) : next.strayed = true :=
  @Protocol.Later.induct _ _ _ (fun other => other.strayed = true) _ _ later sound strayed fun _ held moves => moves.strayed held

theorem later_clock : world.clock ≤ next.clock :=
  @Protocol.Later.induct _ _ _ (fun other => world.clock ≤ other.clock) _ _ later sound (Int.le_refl _)
    fun _ held moves => held.trans moves.clock

theorem later_made {id : ℕ} (made : id < world.allocated) : id < next.allocated :=
  @Protocol.Later.induct _ _ _ (fun other => id < other.allocated) _ _ later sound made
    fun _ held moves => Nat.lt_of_lt_of_le held moves.allocated

theorem later_young {instant : Int} {id : ℕ} (past : instant ≤ world.clock) (young : Young instant id world) : Young instant id next := by
  have both : instant ≤ next.clock ∧ Young instant id next := by
    refine @Protocol.Later.induct _ _ _ (fun other => instant ≤ other.clock ∧ Young instant id other) _ _ later sound ⟨past, young⟩ ?_
    intro first second _ held moves
    refine ⟨held.1.trans moves.clock, fun steady symbol entry found => ?_⟩
    have before : first.strayed = false := by
      cases strayed : first.strayed with
      | false => rfl
      | true =>
        rw [moves.strayed strayed] at steady
        cases steady
    rcases moves.young steady id symbol entry found with earlier | since
    · exact held.2 before symbol entry earlier
    · exact held.1.trans since
  exact both.2

theorem later_young_cache {instant : Int} (past : instant ≤ world.clock) (young : Young instant world.cache world) :
    Young instant next.cache next := by
  have both : instant ≤ next.clock ∧ Young instant next.cache next := by
    refine @Protocol.Later.induct _ _ _ (fun other => instant ≤ other.clock ∧ Young instant other.cache other) _ _ later sound
      ⟨past, young⟩ ?_
    intro first second kept held moves
    have one : (cacheRules Payload).Later first second := Relation.ReflTransGen.single moves
    refine ⟨held.1.trans moves.clock, ?_⟩
    rcases moves.cache with same | new
    · rw [same]
      exact later_young kept one held.1 held.2
    · rw [new]
      refine later_young kept one held.1 fun _ symbol entry found => ?_
      have empty := kept.unmade first.allocated (Nat.le_refl _)
      rw [empty] at found
      cases found
  exact both.2

end Later

end C3po.Fundamentals
