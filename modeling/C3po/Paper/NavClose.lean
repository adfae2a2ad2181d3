import Mathlib.Data.Rat.Floor
import C3po.Library.Interleaving
import C3po.Library.Loops

/-! The canonical close of a session: what a snapshot must carry to be one.

Instants count microseconds. Texts are read by the parsers of the platform, which may read them
as they like; amounts are exact rationals.
-/

set_option autoImplicit false

namespace C3po.Paper
open C3po.Library

/-- A value of a benchmark block. A moment carries its date in its own zone. -/
inductive Datum where
  | null
  | flag (value : Bool)
  | number (value : ℚ)
  | text (value : String)
  | moment (instant : Int) (date : Int)
  | date (value : Int)
  | items (values : List Datum)
  | fields (entries : List (String × Datum))

abbrev Block := String → Option Datum

/-- What the platform reads: finite decimals, instants and dates of texts, the text of any other
value, and the scheduled closes of the exchange calendar, which refuses some dates. -/
structure Platform where
  decimal : String → Option ℚ
  moment : String → Option Int
  date : String → Option Int
  text : Datum → String
  sessionClose : Int → Except String (Option Int)

structure Snapshot where
  sessionDate : Int
  navUsd : ℚ
  cashUsd : ℚ
  dailyPnlUsd : ℚ
  dailyReturnPercent : ℚ
  grossExposureUsd : ℚ
  openPositions : Int
  isFinal : Bool
  benchmark : Block

def xnysCloseSource : String := "xnys_last_tick_mtm"

/-- Five minutes. -/
def closeCaptureGrace : Int := 300000000

def closeMarkLookback : Int := 300000000

def activeMarkets : List String := ["NASDAQ", "NYSE"]

/-- To the cent, halves away from zero. -/
def usdCent (amount : ℚ) : ℚ :=
  let cents : ℚ := ⌊|amount| * 100 + 1 / 2⌋
  if amount < 0 then -(cents / 100) else cents / 100

def Snapshot.amountsAgree (snapshot : Snapshot) (exposure : ℚ) : Bool :=
  usdCent snapshot.grossExposureUsd = usdCent exposure ∧
    usdCent snapshot.navUsd = usdCent snapshot.cashUsd + usdCent snapshot.grossExposureUsd

namespace Datum

/-- What `get` gives of a mapping. -/
def get? (datum : Datum) (name : String) : Option Datum :=
  match datum with
  | .fields entries => (entries.find? fun entry => entry.1 = name).map Prod.snd
  | _ => none

def truthy : Datum → Bool
  | .null => false
  | .flag value => value
  | .number value => value ≠ 0
  | .text value => value ≠ ""
  | .moment .. | .date _ => true
  | .items values => ¬ values.isEmpty
  | .fields entries => ¬ entries.isEmpty

/-- Whether it equals a whole number. -/
def counts (count : Int) : Option Datum → Bool
  | some (.number value) => value = count
  | some (.flag value) => (if value then 1 else 0) = count
  | _ => false

end Datum

namespace Platform
variable (platform : Platform)

def str : Datum → String
  | .text value => value
  | other => platform.text other

/-- `_decimal_value`: zero where there is no finite decimal. -/
def decimalValue : Option Datum → ℚ
  | some (.number value) => value
  | some (.text value) => (platform.decimal value).getD 0
  | _ => 0

/-- `_datetime_value`. -/
def datetimeValue : Option Datum → Option Int
  | some (.moment instant _) => some instant
  | some (.text value) => platform.moment value
  | _ => none

def firstWord (text : String) : Option String :=
  match (text.toList.dropWhile Char.isWhitespace).takeWhile fun character => ¬ character.isWhitespace with
  | [] => none
  | word => some (String.ofList word)

/-- `_date_value`: no date where a text is none, and a failure where it is blank. -/
def dateValue : Datum → Except String (Option Int)
  | .moment _ date => .ok (some date)
  | .date value => .ok (some value)
  | other =>
    match firstWord (platform.str other) with
    | none => .error "list index out of range"
    | some word => .ok (platform.date word)

/-- One mark: its exposure, when it is sound and its position new. -/
def markExposure (scheduledClose : Int) (keys : List (String × String)) (mark : Datum) : Option ((String × String) × ℚ) :=
  match mark.get? "market", mark.get? "symbol" with
  | some market, some symbol =>
    let key := (platform.str market, platform.str symbol)
    let price := platform.decimalValue (mark.get? "price_local")
    let fx := platform.decimalValue (mark.get? "fx_to_usd")
    let quantity := platform.decimalValue (mark.get? "quantity")
    if ¬ (market.truthy ∧ symbol.truthy) then none
    else if key.1 ∉ activeMarkets then none
    else if key ∈ keys then none
    else if price ≤ 0 ∨ fx ≤ 0 ∨ quantity ≤ 0 then none
    else
      match platform.datetimeValue (mark.get? "quote_as_of") with
      | none => none
      | some quoteAsOf =>
        if scheduledClose - closeMarkLookback ≤ quoteAsOf ∧ quoteAsOf ≤ scheduledClose then some (key, quantity * price * fx)
        else none
  | _, _ => none

/-- The exposure of some marks after others, none when one is not sound. -/
def marksExposure (scheduledClose : Int) (marks : List Datum) : Option ((List (String × String)) × ℚ) :=
  marks.foldlM (fun state mark =>
    (platform.markExposure scheduledClose state.1 mark).map fun found => (state.1 ++ [found.1], state.2 + found.2)) ([], 0)

/-- The close and the marks of a block that says it was captured at the close of the session. -/
def capturedMarks (snapshot : Snapshot) (navClose : Datum) : Except String (Option (Int × List Datum)) := do
  match navClose.get? "source", navClose.get? "session_date" with
  | some (.text source), some provenance =>
    if source ≠ xnysCloseSource then pure none
    else
      let provenanceDate ← platform.dateValue provenance
      if provenanceDate ≠ some snapshot.sessionDate then pure none
      else
        let scheduled ← platform.sessionClose snapshot.sessionDate
        match scheduled, platform.datetimeValue (navClose.get? "captured_at"),
            platform.datetimeValue (navClose.get? "session_close_at"), navClose.get? "marks" with
        | some scheduledClose, some capturedAt, some recordedClose, some (.items marks) =>
          if recordedClose = scheduledClose ∧ scheduledClose ≤ capturedAt ∧ capturedAt ≤ scheduledClose + closeCaptureGrace ∧
              Datum.counts marks.length (navClose.get? "position_count") ∧
              Datum.counts snapshot.openPositions (navClose.get? "position_count") then
            pure (some (scheduledClose, marks))
          else pure none
        | _, _, _, _ => pure none
  | _, _ => pure none

/-- `_canonical_nav_close`. -/
def canonicalNavClose (snapshot : Snapshot) : Except String (Option Datum) :=
  match snapshot.benchmark "nav_close" with
  | some (.fields entries) => do
    match ← platform.capturedMarks snapshot (.fields entries) with
    | none => pure none
    | some (scheduledClose, marks) =>
      match platform.marksExposure scheduledClose marks with
      | none => pure none
      | some (_, exposure) => pure (if snapshot.amountsAgree exposure then some (.fields entries) else none)
  | _ => pure none

end Platform

/-! The daily snapshots of one experiment, saved and finalized by any number of processes.

A save reads the snapshot of its day, may be refused, and writes with one upsert; each of these
is one step on the table. What it reads of other tables in between is the answer of its
environment.
-/

/-- The rows of the experiment, by session date. -/
abbrev SnapshotTable := Int → Option Snapshot

/-- The result of the day as the realized track has it; none when it cannot be computed. -/
abbrev Track := Option (ℚ × ℚ)

/-- The arguments of `save_snapshot`. -/
structure SaveCall where
  sessionDate : Int
  nav : ℚ
  cash : ℚ
  exposure : ℚ
  positions : Int
  isFinal : Bool
  benchmark : Block

inductive SnapshotCall where
  | save (call : SaveCall)
  | finalizeBefore (sessionDate : Int)

inductive SnapshotAnswer where
  | raised (error : String)
  | kept (snapshot : Snapshot)
  | saved (snapshot : Snapshot)
  | finalized

/-- The fields of one block over those of another. -/
def Block.merge (old new : Block) : Block := fun name => (new name).or (old name)

def SaveCall.payload (call : SaveCall) (previous : Option Snapshot) (dailyPnl dailyReturn : ℚ) : Snapshot :=
  { sessionDate := call.sessionDate
    navUsd := call.nav
    cashUsd := call.cash
    dailyPnlUsd := dailyPnl
    dailyReturnPercent := dailyReturn
    grossExposureUsd := call.exposure
    openPositions := call.positions
    isFinal := (previous.map Snapshot.isFinal).getD false || call.isFinal
    benchmark := Block.merge ((previous.map Snapshot.benchmark).getD fun _ => none) call.benchmark }

/-- The insert, and on a conflict the update of a row that carries no close. -/
def upsert (payload : Snapshot) (table : SnapshotTable) : SnapshotTable :=
  match table payload.sessionDate with
  | none => Function.update table payload.sessionDate (some payload)
  | some stored =>
    if (stored.benchmark "nav_close").isSome then table
    else Function.update table payload.sessionDate (some { payload with
      isFinal := stored.isFinal || payload.isFinal, benchmark := Block.merge stored.benchmark payload.benchmark })

def finalizedBefore (sessionDate : Int) (table : SnapshotTable) : SnapshotTable := fun date =>
  (table date).map fun snapshot => if date < sessionDate then { snapshot with isFinal := true } else snapshot

abbrev SnapshotProgram := Program SnapshotTable Track SnapshotAnswer

section Saving
variable (platform : Platform)

def saveTracked (call : SaveCall) (previous : Option Snapshot) : Track → SnapshotProgram
  | none => pure (.raised "StopIteration")
  | some (dailyPnl, dailyReturn) =>
    let payload := call.payload previous dailyPnl dailyReturn
    let writes : SnapshotProgram := do
      Program.write (upsert payload) fun _ => ()
      let stored ← Program.read fun table => table call.sessionDate
      pure (.saved (stored.getD payload))
    if (call.benchmark "nav_close").isSome then
      match platform.canonicalNavClose payload with
      | .error error => pure (.raised error)
      | .ok none => pure (.raised "invalid canonical XNYS close provenance")
      | .ok (some _) => writes
    else writes

def saveOver (call : SaveCall) (previous : Option Snapshot) : SnapshotProgram :=
  match previous with
  | none => Program.answer >>= saveTracked platform call none
  | some snapshot =>
    match platform.canonicalNavClose snapshot with
    | .error error => pure (.raised error)
    | .ok (some _) => pure (.kept snapshot)
    | .ok none => Program.answer >>= saveTracked platform call (some snapshot)

def saveSnapshot (call : SaveCall) : SnapshotProgram :=
  Program.read (fun table => table call.sessionDate) >>= saveOver platform call

def finalizeBefore (sessionDate : Int) : SnapshotProgram := do
  Program.write (finalizedBefore sessionDate) fun _ => ()
  pure .finalized

def serve : SnapshotCall → SnapshotProgram
  | .save call => saveSnapshot platform call
  | .finalizeBefore sessionDate => finalizeBefore sessionDate

end Saving

/-! A canonical close is written once and never moves.

A save decides on the snapshot it read, which may be stale by the time it writes; what keeps the
close is that a row that carries one is canonical, and that no upsert touches such a row.
-/

variable (platform : Platform)

def Snapshot.carriesClose (snapshot : Snapshot) : Prop := (snapshot.benchmark "nav_close").isSome = true

def markedExposure (marks : List Datum) : ℚ :=
  (marks.map fun mark => platform.decimalValue (mark.get? "quantity") * platform.decimalValue (mark.get? "price_local") *
    platform.decimalValue (mark.get? "fx_to_usd")).sum

def Snapshot.Canonical (snapshot : Snapshot) : Prop := ∃ navClose, platform.canonicalNavClose snapshot = .ok (some navClose)

/-- The rows that carry a close are canonical. -/
def SoundTable (table : SnapshotTable) : Prop :=
  ∀ date snapshot, table date = some snapshot →
    snapshot.sessionDate = date ∧ (snapshot.carriesClose → snapshot.Canonical platform)

/-- What a row may become: final for good, and nothing else once it carries a close. -/
structure Snapshot.Continues (snapshot later : Snapshot) : Prop where
  final : snapshot.isFinal = true → later.isFinal = true
  close : snapshot.carriesClose → later = { snapshot with isFinal := later.isFinal }

def TableMoves (table next : SnapshotTable) : Prop :=
  (∀ date snapshot, table date = some snapshot → ∃ later, next date = some later ∧ snapshot.Continues later) ∧
    SoundTable platform next

/-- The rules every save and finalization keeps. -/
def snapshotRules : Protocol SnapshotTable Track where
  keeps := SoundTable platform
  moves := TableMoves platform
  allowed := fun _ _ => True
  kept := fun _ moves => moves.2

section Canonical
variable {platform} {snapshot other : Snapshot}

theorem Snapshot.Continues.refl (snapshot : Snapshot) : snapshot.Continues snapshot := ⟨id, fun _ => rfl⟩

theorem Snapshot.Continues.trans {first second third : Snapshot} (before : first.Continues second) (after : second.Continues third) :
    first.Continues third := by
  constructor
  · exact fun final => after.final (before.final final)
  · intro close
    have same := before.close close
    have carried : second.carriesClose := by
      rw [same]
      exact close
    rw [after.close carried, same]

theorem canonical_congr (date : other.sessionDate = snapshot.sessionDate) (nav : other.navUsd = snapshot.navUsd)
    (cash : other.cashUsd = snapshot.cashUsd) (exposure : other.grossExposureUsd = snapshot.grossExposureUsd)
    (positions : other.openPositions = snapshot.openPositions)
    (close : other.benchmark "nav_close" = snapshot.benchmark "nav_close") :
    platform.canonicalNavClose other = platform.canonicalNavClose snapshot := by
  have captured : ∀ navClose, platform.capturedMarks other navClose = platform.capturedMarks snapshot navClose := by
    intro navClose
    unfold Platform.capturedMarks
    rw [date, positions]
  have amounts : ∀ exposure, other.amountsAgree exposure = snapshot.amountsAgree exposure := by
    intro amount
    unfold Snapshot.amountsAgree
    rw [nav, cash, exposure]
  unfold Platform.canonicalNavClose
  simp only [close, captured, amounts]

theorem marksExposure_from {scheduledClose : Int} {marks : List Datum} {start final : List (String × String) × ℚ}
    (sound : marks.foldlM (fun state mark =>
      (platform.markExposure scheduledClose state.1 mark).map fun found => (state.1 ++ [found.1], state.2 + found.2)) start = some final) :
    final.2 = start.2 + markedExposure platform marks := by
  induction marks generalizing start with
  | nil =>
    cases sound
    simp [markedExposure]
  | cons mark rest ih =>
    rw [List.foldlM_cons] at sound
    obtain ⟨next, stepped, goes⟩ := Option.bind_eq_some_iff.mp sound
    obtain ⟨found, valued, rfl⟩ := Option.map_eq_some_iff.mp stepped
    have value : found.2 = platform.decimalValue (mark.get? "quantity") * platform.decimalValue (mark.get? "price_local") *
        platform.decimalValue (mark.get? "fx_to_usd") := by
      unfold Platform.markExposure at valued
      dsimp only at valued
      split at valued
      · split_ifs at valued
        · split at valued
          · cases valued
          · split_ifs at valued
            cases valued
            rfl
      · cases valued
    rw [ih goes, value, markedExposure, markedExposure, List.map_cons, List.sum_cons, add_assoc]

theorem capturedMarks_marks {navClose : Datum} {scheduledClose : Int} {marks : List Datum}
    (captured : platform.capturedMarks snapshot navClose = .ok (some (scheduledClose, marks))) :
    navClose.get? "marks" = some (.items marks) := by
  unfold Platform.capturedMarks at captured
  split at captured
  · split_ifs at captured
    · cases captured
    · obtain ⟨provenanceDate, dated, rest⟩ := bind_ok captured
      split_ifs at rest
      · cases rest
      · obtain ⟨scheduled, closes, rest⟩ := bind_ok rest
        split at rest
        · rename_i held
          split_ifs at rest
          · cases rest
            exact held
          · cases rest
        · cases rest
  · cases captured

theorem Snapshot.Canonical.amounts (canonical : snapshot.Canonical platform) : ∃ navClose marks,
    snapshot.benchmark "nav_close" = some navClose ∧ navClose.get? "marks" = some (.items marks) ∧
      usdCent snapshot.navUsd = usdCent snapshot.cashUsd + usdCent (markedExposure platform marks) := by
  obtain ⟨navClose, found⟩ := canonical
  unfold Platform.canonicalNavClose at found
  split at found
  · rename_i entries held
    obtain ⟨captured, marked, rest⟩ := bind_ok found
    cases captured with
    | none => cases rest
    | some captured =>
      obtain ⟨scheduledClose, marks⟩ := captured
      dsimp only at rest
      cases valued : platform.marksExposure scheduledClose marks with
      | none =>
        rw [valued] at rest
        cases rest
      | some final =>
        obtain ⟨keys, exposure⟩ := final
        rw [valued] at rest
        have worth : exposure = 0 + markedExposure platform marks := marksExposure_from valued
        rw [zero_add] at worth
        have agreed := Except.ok.inj rest
        split at agreed
        · rename_i agree
          cases agreed
          obtain ⟨same, nav⟩ := of_decide_eq_true agree
          refine ⟨_, marks, held, capturedMarks_marks marked, ?_⟩
          rw [nav, same, worth]
        · cases agreed
  · cases found

end Canonical

end C3po.Paper
