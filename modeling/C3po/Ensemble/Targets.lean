import Mathlib.Data.String.Basic
import C3po.Ensemble.Aggregation
import C3po.Library.Latest
import C3po.Library.Number
import C3po.Library.StableSort

/-! The two readers of the analysts' targets: the frozen one with its median, and the grid's mean.

A row is any JSON value, and an instant is of microseconds from the first one there is.
What Python makes of a value, and what a row hashes to, are of a `Reading`.
-/

set_option autoImplicit false

namespace C3po.Ensemble
open C3po.Library

/-- A date and time, with its offset where it has a zone. -/
structure Clock where
  moment : Int
  offset : Option Int
  deriving DecidableEq, Repr

inductive Value where
  | none
  | bool (value : Bool)
  | number (value : Number)
  | text (value : String)
  | clock (value : Clock)
  /-- Any other object, by its identity. -/
  | other (identity : ℕ)
  deriving DecidableEq, Repr

abbrev Row := Dict String Value

/-- What is not a mapping is none. -/
abbrev Rows := List (Option Row)

structure Reading where
  truthy : ℕ → Bool
  str : Value → String
  /-- None where `float` raises. -/
  float : Value → Option Number
  fromisoformat : String → Option Clock
  strip : String → String
  upper : String → String
  /-- None where the row has no canonical JSON. -/
  canonicalHash : Row → Option String

/-- The instants a date can have. -/
def lastInstant : Int := 3652059 * 86400000000

def consensusWindow : Int := 90 * 86400000000
def minConsensusHouses : ℕ := 3

inductive Unread where
  | unparseable
  /-- An instant that no date can have, which neither reader handles. -/
  | overflow
  deriving DecidableEq, Repr

def instantOf (moment : Int) : Except Unread Int :=
  if 0 ≤ moment ∧ moment < lastInstant then .ok moment else .error .overflow

/-- A clock without a zone is read as UTC. -/
def Clock.utc (clock : Clock) : Except Unread Int :=
  match clock.offset with
  | none => .ok clock.moment
  | some offset => instantOf (clock.moment - offset)

section Read
variable (reading : Reading)

def Reading.isTrue : Value → Bool
  | .none => false
  | .bool value => value
  | .number value => value ≠ .finite 0
  | .text value => value ≠ ""
  | .clock _ => true
  | .other identity => reading.truthy identity

def Reading.orElse (first second : Value) : Value := if reading.isTrue first then first else second

def Row.read (row : Row) (name : String) : Value := row.getD name .none

/-- Z as the offset it stands for. -/
def zoned (text : String) : String :=
  String.ofList (text.toList.flatMap fun letter => if letter = 'Z' then ['+', '0', '0', ':', '0', '0'] else [letter])

def Reading.instant (value : Value) : Except Unread Int :=
  match value with
  | .clock clock => clock.utc
  | value => match reading.fromisoformat (zoned (reading.str value)) with
      | none => .error .unparseable
      | some clock => clock.utc

def Reading.positive (value : Value) : Option ℚ :=
  ((reading.float value).bind Number.finite?).filter fun number => 0 < number

def Reading.house (row : Row) : String :=
  reading.strip (reading.str (reading.orElse (row.read "analystCompany")
    (reading.orElse (row.read "analystName") (reading.orElse (row.read "newsPublisher") (.text "")))))

def isBlank (value : Value) : Bool := value = .none ∨ value = .text ""

def Reading.currency (value : Value) : String := reading.upper (reading.strip (reading.str value))

end Read

inductive Refusal where
  | currencyFieldMissing
  | currencyMismatch
  | houseOrTargetMissing
  | housesBelowMinimum
  | notAnObject
  | olderThanWindow
  | publishedAfterT
  | publishedDateUnparseable
  deriving DecidableEq, Repr

def Refusal.text : Refusal → String
  | currencyFieldMissing => "currency_field_missing"
  | currencyMismatch => "currency_mismatch"
  | houseOrTargetMissing => "house_or_target_missing"
  | housesBelowMinimum => "houses_below_minimum"
  | notAnObject => "not_an_object"
  | olderThanWindow => "older_than_window"
  | publishedAfterT => "published_after_T"
  | publishedDateUnparseable => "published_date_unparseable"

/-- In the order of their texts. -/
def refusals : List Refusal :=
  [.currencyFieldMissing, .currencyMismatch, .houseOrTargetMissing, .housesBelowMinimum, .notAnObject,
    .olderThanWindow, .publishedAfterT, .publishedDateUnparseable]

/-- A target of a house, as the frozen reader keeps it. -/
structure Target where
  published : Int
  target : ℚ
  deriving DecidableEq, Repr

/-- A target of a house, as the grid keeps it. -/
structure Pinned extends Target where
  row : Row
  rowIndex : ℕ
  deriving DecidableEq

/-- The block of the frozen reader; its constant fields are left out. -/
structure Block where
  consensusTp : ℚ
  analystCount : ℕ
  publishedAt : Int
  currency : String
  deriving DecidableEq, Repr

/-- The counts, by text, of the reasons that occurred. -/
def counted (refused : List Refusal) : List (String × ℕ) :=
  (refusals.map fun refusal => (refusal.text, refused.count refusal)).filter fun entry => entry.2 ≠ 0

def latestOf (targets : List Target) : Option Int := (targets.map Target.published).max?

def targetMedian (targets : List Target) : ℚ := medianOf ((targets.map Target.target).insertionSort (· ≤ ·))

section Frozen
variable (reading : Reading)

structure Frozen where
  latest : Dict String Target := Dict.empty
  refused : List Refusal := []
  deriving DecidableEq

def Frozen.refuse (state : Frozen) (refusal : Refusal) : Frozen :=
  { state with refused := state.refused ++ [refusal] }

def Frozen.row (cut floor : Int) (currency : String) (state : Frozen) (row : Option Row) : Except Unread Frozen :=
  match row with
  | none => .ok (state.refuse .notAnObject)
  | some row =>
      let house := reading.house row
      let target := reading.positive (row.read "priceTarget")
      match reading.instant (row.read "publishedDate") with
      | .error .unparseable => .ok (state.refuse .publishedDateUnparseable)
      | .error .overflow => .error .overflow
      | .ok published =>
          match target with
          | none => .ok (state.refuse .houseOrTargetMissing)
          | some target =>
              if house = "" then .ok (state.refuse .houseOrTargetMissing)
              else if cut < published then .ok (state.refuse .publishedAfterT)
              else if published ≤ floor then .ok (state.refuse .olderThanWindow)
              else
                let rowCurrency := row.read "currency"
                if isBlank rowCurrency then .ok (state.refuse .currencyFieldMissing)
                else if reading.currency rowCurrency ≠ currency then .ok (state.refuse .currencyMismatch)
                else .ok { state with latest := state.latest.keepNewest Target.published house ⟨published, target⟩ }

def consensusAt (rows : Rows) (asOf : Clock) (currency : String) :
    Except Unread (Option Block × List (String × ℕ)) := do
  let cut ← asOf.utc
  let floor ← instantOf (cut - consensusWindow)
  let state ← rows.foldlM (Frozen.row reading cut floor currency) {}
  let targets := state.latest.entries.map Prod.snd
  if state.latest.size < minConsensusHouses then
    return (none, counted (state.refused ++ [.housesBelowMinimum]))
  return (some ⟨targetMedian targets, state.latest.size, (latestOf targets).getD 0, currency⟩, counted state.refused)

end Frozen

inductive GridRefusal where
  | instantWithoutTimezone
  | invalidConsensusMarket
  | consensusMarketCurrencyMismatch
  | consensusReaderContractMismatch
  deriving DecidableEq, Repr

inductive GridError where
  | notEvaluable (reason : GridRefusal)
  | overflow
  /-- A selected row has no canonical JSON. -/
  | unencodable
  deriving DecidableEq, Repr

structure HouseMember where
  house : String
  publishedAt : Int
  target : ℚ
  rowIndex : ℕ
  rawRowSha256 : String
  deriving DecidableEq, Repr

/-- The metadata of the grid's consensus; its constant fields are left out. -/
structure ConsensusReceipt where
  snapshotId : Option String
  currency : String
  asOf : Int
  analystCount : ℕ := 0
  consensusPublishedAt : Option Int := none
  publicConsensusTp : Option ℚ := none
  value : Option ℚ := none
  members : List HouseMember := []
  refused : List (String × ℕ) := []
  evaluated : Bool := false
  reason : Option String
  deriving DecidableEq, Repr

section Grid
variable (reading : Reading)

def gridRow (cut floor : Int) (currency : String) (latest : Dict String Pinned) (entry : Option Row × ℕ) :
    Except Unread (Dict String Pinned) :=
  match entry.1 with
  | none => .ok latest
  | some row =>
      let house := reading.house row
      let target := reading.positive (row.read "priceTarget")
      match reading.instant (row.read "publishedDate") with
      | .error .unparseable => .ok latest
      | .error .overflow => .error .overflow
      | .ok published =>
          let rowCurrency := row.read "currency"
          match target with
          | none => .ok latest
          | some target =>
              if house = "" ∨ cut < published ∨ published ≤ floor ∨ isBlank rowCurrency ∨
                  reading.currency rowCurrency ≠ currency then .ok latest
              else .ok (latest.keepNewest (fun kept => kept.published) house ⟨⟨published, target⟩, row, entry.2⟩)

def memberOf (house : String) (pinned : Pinned) : Except GridError HouseMember :=
  match reading.canonicalHash pinned.row with
  | none => .error .unencodable
  | some hash => .ok ⟨house, pinned.published, pinned.target, pinned.rowIndex, hash⟩

def overflowed {α : Type} : Except Unread α → Except GridError α
  | .ok value => .ok value
  | .error _ => .error .overflow

def byHouse (latest : Dict String Pinned) : List (String × Pinned) :=
  stableSort Prod.fst latest.entries

def gridConsensusAt (rows : Option Rows) (asOf : Clock) (currency : String) (snapshotId : Option String)
    (market : String) : Except GridError (Option ℚ × ConsensusReceipt) := do
  if asOf.offset.isNone then throw (.notEvaluable .instantWithoutTimezone)
  let cut ← overflowed asOf.utc
  if market ∉ ["NASDAQ", "NYSE", "B3"] then throw (.notEvaluable .invalidConsensusMarket)
  if currency ≠ (if market = "B3" then "BRL" else "USD") then throw (.notEvaluable .consensusMarketCurrencyMismatch)
  let receipt : ConsensusReceipt := { snapshotId, currency, asOf := cut, reason := none }
  let uncovered (reason : String) : ConsensusReceipt := { receipt with reason := some reason, refused := [(reason, 1)] }
  if market = "B3" then return (none, uncovered "not_covered_for_B3")
  match rows, snapshotId.filter (fun id => reading.strip id ≠ "") with
  | none, _ => return (none, uncovered "targets_snapshot_missing")
  | _, none => return (none, uncovered "targets_snapshot_missing")
  | some rows, some _ =>
      let (block, refused) ← overflowed (consensusAt reading rows ⟨cut, some 0⟩ currency)
      let floor ← overflowed (instantOf (cut - consensusWindow))
      let latest ← overflowed (rows.zipIdx.foldlM (gridRow reading cut floor currency) Dict.empty)
      let members ← (byHouse latest).mapM fun entry => memberOf reading entry.1 entry.2
      let receipt := { receipt with analystCount := latest.size, members, refused }
      let targets := latest.entries.map fun entry => entry.2.toTarget
      match block with
      | none =>
          if minConsensusHouses ≤ latest.size then throw (.notEvaluable .consensusReaderContractMismatch)
          return (none, { receipt with reason := some "houses_below_minimum" })
      | some block =>
          if latest.size ≠ block.analystCount ∨ targetMedian targets ≠ block.consensusTp ∨
              latestOf targets ≠ some block.publishedAt then
            throw (.notEvaluable .consensusReaderContractMismatch)
          let value := meanOf (targets.map Target.target)
          return (some value, { receipt with
            evaluated := true, value := some value, publicConsensusTp := some block.consensusTp
            consensusPublishedAt := some block.publishedAt })

end Grid

/-! What both readers select: of each house, the newest of its eligible rows.

A row raises or has a verdict whatever came before it. So each loop is a plain one over
verdicts, and the grid's targets are the frozen reader's.
-/

section Verdicts
variable (reading : Reading) (cut floor : Int) (currency : String)

/-- A row whose instant no date can have. -/
def Reading.overflows (row : Option Row) : Bool :=
  match row with
  | none => false
  | some row => match reading.instant (row.read "publishedDate") with
      | .error .overflow => true
      | _ => false

def Reading.verdict (row : Option Row) : Refusal ⊕ String × Target :=
  match row with
  | none => .inl .notAnObject
  | some row => match reading.instant (row.read "publishedDate"), reading.positive (row.read "priceTarget") with
      | .error _, _ => .inl .publishedDateUnparseable
      | .ok _, none => .inl .houseOrTargetMissing
      | .ok published, some target =>
          if reading.house row = "" then .inl .houseOrTargetMissing
          else if cut < published then .inl .publishedAfterT
          else if published ≤ floor then .inl .olderThanWindow
          else if isBlank (row.read "currency") then .inl .currencyFieldMissing
          else if reading.currency (row.read "currency") ≠ currency then .inl .currencyMismatch
          else .inr (reading.house row, ⟨published, target⟩)

def Reading.eligible (row : Option Row) : Option (String × Target) :=
  (reading.verdict cut floor currency row).getRight?

def Reading.refusal (row : Option Row) : Option Refusal := (reading.verdict cut floor currency row).getLeft?

/-- The newest eligible target of each house. -/
def Reading.chosen (rows : Rows) : Dict String Target :=
  newest Target.published (rows.filterMap (reading.eligible cut floor currency))

/-- An eligible row, with its place among the rows. -/
def Reading.pinned (entry : Option Row × ℕ) : Option (String × Pinned) :=
  match entry.1, reading.eligible cut floor currency entry.1 with
  | some row, some (house, target) => some (house, ⟨target, row, entry.2⟩)
  | _, _ => none

def Reading.selected (rows : Rows) : Dict String Pinned :=
  newest (fun kept => kept.published) (rows.zipIdx.filterMap (reading.pinned cut floor currency))

end Verdicts

/-- The frozen reader's result, of what it chose and refused. -/
def summary (currency : String) (latest : Dict String Target) (refused : List Refusal) : Option Block × List (String × ℕ) :=
  let targets := latest.entries.map Prod.snd
  if latest.size < minConsensusHouses then (none, counted (refused ++ [.housesBelowMinimum]))
  else (some ⟨targetMedian targets, latest.size, (latestOf targets).getD 0, currency⟩, counted refused)

variable {reading : Reading} {cut floor : Int} {currency : String}

section Frozen

theorem frozen_row (row : Option Row) (state : Frozen) :
    Frozen.row reading cut floor currency state row = if reading.overflows row then .error .overflow else
      .ok (match reading.verdict cut floor currency row with
        | .inl refusal => state.refuse refusal
        | .inr (house, target) => { state with latest := state.latest.keepNewest Target.published house target }) := by
  cases row with
  | none => rfl
  | some row =>
    unfold Frozen.row Reading.overflows Reading.verdict
    simp only
    cases reading.instant (row.read "publishedDate") with
    | error unread =>
      cases unread with
      | unparseable => rfl
      | overflow => rfl
    | ok published =>
      simp only
      cases reading.positive (row.read "priceTarget") with
      | none => rfl
      | some target =>
        simp only [Bool.false_eq_true, if_false]
        split_ifs <;> rfl

theorem frozen_fold (rows : Rows) (state : Frozen) :
    rows.foldl (fun state row => match reading.verdict cut floor currency row with
        | .inl refusal => state.refuse refusal
        | .inr (house, target) => { state with latest := state.latest.keepNewest Target.published house target }) state =
      { latest := (rows.filterMap (reading.eligible cut floor currency)).foldl
          (fun dict item => dict.keepNewest Target.published item.1 item.2) state.latest
        refused := state.refused ++ rows.filterMap (reading.refusal cut floor currency) } := by
  induction rows generalizing state with
  | nil => simp
  | cons row rest ih =>
    rw [List.foldl_cons, ih]
    unfold Reading.eligible Reading.refusal
    cases verdict : reading.verdict cut floor currency row with
    | inl refusal => simp [verdict, Frozen.refuse]
    | inr found =>
      obtain ⟨house, target⟩ := found
      simp [verdict]

theorem consensusAt_eq {rows : Rows} {asOf : Clock} (isCut : asOf.utc = .ok cut)
    (isFloor : instantOf (cut - consensusWindow) = .ok floor) :
    consensusAt reading rows asOf currency = if rows.any reading.overflows then .error .overflow else
      .ok (summary currency (reading.chosen cut floor currency rows)
        (rows.filterMap (reading.refusal cut floor currency))) := by
  unfold consensusAt
  rw [isCut]
  simp only [bind, Except.bind]
  rw [isFloor]
  simp only
  rw [foldlM_guarded rows fun row state => frozen_row row state]
  cases rows.any reading.overflows with
  | true => rfl
  | false =>
    simp only [Bool.false_eq_true, if_false]
    rw [frozen_fold]
    unfold summary Reading.chosen newest
    simp only [List.nil_append]
    split_ifs <;> rfl

end Frozen

section Grid

theorem grid_row (entry : Option Row × ℕ) (latest : Dict String Pinned) :
    gridRow reading cut floor currency latest entry = if reading.overflows entry.1 then .error .overflow else
      .ok (match reading.pinned cut floor currency entry with
        | none => latest
        | some (house, pinned) => latest.keepNewest (fun kept => kept.published) house pinned) := by
  obtain ⟨row, index⟩ := entry
  cases row with
  | none => rfl
  | some row =>
    unfold gridRow Reading.overflows Reading.pinned Reading.eligible Reading.verdict
    simp only
    cases reading.instant (row.read "publishedDate") with
    | error unread =>
      cases unread with
      | unparseable => rfl
      | overflow => rfl
    | ok published =>
      simp only
      cases reading.positive (row.read "priceTarget") with
      | none => rfl
      | some target =>
        simp only
        by_cases house : reading.house row = ""
        · simp [house]
        by_cases after : cut < published
        · simp [house, after]
        by_cases older : published ≤ floor
        · simp [house, after, older]
        by_cases blank : isBlank (row.read "currency") = true
        · simp [house, after, older, blank]
        by_cases foreign : reading.currency (row.read "currency") = currency
        · simp [house, after, older, blank, foreign]
        · simp [house, after, older, blank, foreign]

theorem grid_fold (entries : List (Option Row × ℕ)) (latest : Dict String Pinned) :
    entries.foldl (fun latest entry => match reading.pinned cut floor currency entry with
        | none => latest
        | some (house, pinned) => latest.keepNewest (fun kept => kept.published) house pinned) latest =
      (entries.filterMap (reading.pinned cut floor currency)).foldl
        (fun dict item => dict.keepNewest (fun kept => kept.published) item.1 item.2) latest := by
  induction entries generalizing latest with
  | nil => rfl
  | cons entry rest ih =>
    rw [List.foldl_cons, ih]
    cases found : reading.pinned cut floor currency entry with
    | none => simp [found]
    | some item => simp [found]

theorem grid_loop (rows : Rows) :
    rows.zipIdx.foldlM (gridRow reading cut floor currency) Dict.empty =
      if rows.any reading.overflows then .error .overflow else .ok (reading.selected cut floor currency rows) := by
  rw [foldlM_guarded rows.zipIdx fun entry latest => grid_row entry latest]
  have every : rows.zipIdx.any (fun entry => reading.overflows entry.1) = rows.any reading.overflows := by
    conv_rhs => rw [← List.zipIdx_map_fst 0 rows]
    rw [List.any_map]
    rfl
  rw [every, grid_fold]
  rfl

end Grid

section Agreement

theorem selected_target (rows : Rows) (house : String) :
    (reading.chosen cut floor currency rows).get? house =
      ((reading.selected cut floor currency rows).get? house).map Pinned.toTarget := by
  have items : rows.filterMap (reading.eligible cut floor currency) =
      (rows.zipIdx.filterMap (reading.pinned cut floor currency)).map (Prod.map id Pinned.toTarget) := by
    conv_lhs => rw [← List.zipIdx_map_fst 0 rows]
    rw [List.filterMap_map, List.map_filterMap]
    congr 1
    funext entry
    obtain ⟨row, index⟩ := entry
    show reading.eligible cut floor currency row = _
    unfold Reading.pinned
    cases row with
    | none => rfl
    | some row =>
      simp only
      cases reading.eligible cut floor currency (some row) with
      | none => rfl
      | some found => rfl
  unfold Reading.chosen Reading.selected
  rw [items]
  exact newest_map (fun _ => rfl) _ house

theorem targets_perm (rows : Rows) :
    ((reading.selected cut floor currency rows).entries.map fun entry => (entry.1, entry.2.toTarget)).Perm
      (reading.chosen cut floor currency rows).entries :=
  Dict.entries_perm (selected_target rows)

end Agreement
end C3po.Ensemble
