import Mathlib.Data.List.Infix
import C3po.Library.Dict
import C3po.Library.Script
import C3po.Schedule.Slots

/-! Recovery of missed schedules: one pass over the ledger, request by request.

The world is the record of what passes did; the ledger on disk is the one saved last. Every
answer comes from outside: clock readings, holds, pages, posts and whether a write is done.
-/

set_option autoImplicit false

namespace C3po.Schedule
open C3po.Library

inductive State where
  | dispatchHeld
  | skipped
  | dispatchIntent
  | dispatchUnknown
  | runConfirmed
  | noticeIntent
  | noticeUnknown
  | complete
  deriving DecidableEq, Repr

/-- An entry as the file has it; a field that is missing or does not read is none. -/
structure Entry where
  workflow : String
  slot : Option Int
  state : State
  attemptedAt : Option Int
  headSha : Option String
  beforeId : Option Int
  runId : Option Int
  commentId : Option Int
  deriving DecidableEq, Repr

abbrev Entries := Dict String Entry

/-- A workflow run as a page lists it. -/
structure Row where
  id : Option Int
  path : String
  headBranch : Option String
  createdAt : Option Int
  status : Option String
  displayTitle : Option String
  event : Option String
  headSha : Option String
  deriving DecidableEq, Repr

structure Run where
  id : Int
  status : String
  createdAt : Int
  displayTitle : String
  event : Option String
  headSha : Option String
  deriving DecidableEq, Repr

structure Comment where
  id : Option Int
  body : Option String
  deriving DecidableEq, Repr

/-- The target of a link, taken apart. -/
structure Target where
  scheme : String
  netloc : String
  path : String
  fragment : String
  query : String
  deriving DecidableEq, Repr

/-- One page: its count and rows where they read, whether it came with links, and those found. -/
structure Page (R : Type) where
  totalCount : Option Int
  rows : Option (List R)
  linked : Bool
  links : List (Target × String)
  deriving DecidableEq, Repr

/-- What one question may be answered; each question reads its own field. -/
structure Answer where
  now : ℕ
  allowed : Bool
  unsafeLedger : Bool
  write : Script.Replacement
  runs : Except String (Page Row)
  workflow : Except String (Option String)
  main : Except String (Option String)
  dispatched : Except String Unit
  comments : Except String (Page Comment)
  noticed : Except String Comment

/-- What a pass did, in order. -/
inductive Action where
  | began
  | clock (now : Int)
  | listed (slot : Slot) (runs : List Run)
  | saved (entries : Entries)
  | dispatched (slot : Slot)
  | noticed (slot : Slot)
  deriving DecidableEq

abbrev Trace := List Action

/-- The ledger on disk. -/
def durable (trace : Trace) : Entries :=
  trace.foldl (fun disk action =>
    match action with
    | .saved entries => entries
    | _ => disk) Dict.empty

structure Memory where
  entries : Entries
  covered : ℕ
  planned : ℕ
  confirmed : ℕ
  errors : ℕ

def Memory.initial : Memory := ⟨Dict.empty, 0, 0, 0, 0⟩

abbrev Pass (A : Type) := Script Memory Trace Answer String A

def record (action : Action) : Pass Unit := Script.step fun trace => trace ++ [action]

def raise {A : Type} (code : String) : Pass A := Script.raise code

def currentTime : Pass Int := do
  let answer ← Script.ask
  record (.clock answer.now)
  pure (answer.now : Int)

def mayWrite : Pass Bool := do
  let answer ← Script.ask
  pure answer.allowed

section Ledger
variable (zone : Zone)

def hexDigit (letter : Char) : Bool := letter.isDigit || ('a' ≤ letter && letter ≤ 'f')

def isSha (text : Option String) : Bool := text.any fun text => text.toList.length = 40 && text.toList.all hexDigit

/-- The states in which the run of a dispatch is known. -/
def State.ran (state : State) : Bool :=
  state ∈ [State.runConfirmed, .noticeIntent, .noticeUnknown, .complete]

def checkEntry (key : String) (entry : Entry) : Except String Unit :=
  if entry.workflow ∈ retiredWorkflows then .ok ()
  else do
    let slot ← validateSlot zone entry.workflow entry.slot
    if key ≠ slot.key ∨ ¬isSha entry.headSha then .error "invalid_ledger_entry"
    else if entry.attemptedAt = none then .error "invalid_timestamp"
    else
      match entry.beforeId with
      | none => .error "invalid_ledger_entry"
      | some before =>
          if before < 0 then .error "invalid_ledger_entry"
          else if entry.state.ran ∧ ¬entry.runId.any (before < ·) then .error "invalid_ledger_entry"
          else .ok ()

def checkLedger (entries : Entries) : Except String Unit :=
  if 50000 < entries.size then .error "invalid_ledger"
  else entries.entries.forM fun entry => checkEntry zone entry.1 entry.2

def openLedger : Pass Unit := do
  let answer ← Script.ask
  record .began
  if answer.unsafeLedger then raise "unsafe_ledger"
  else
    let entries ← Script.look durable
    Script.outcome (checkLedger zone entries)
    Script.remember fun memory => { memory with entries := entries }

end Ledger

def inOrder (first second : String × Entry) : Bool := first.1 ≤ second.1

def save : Pass Unit := do
  let memory ← Script.recalled
  Script.replace Answer.write "OSError" fun trace => trace ++ [.saved (memory.entries.sorted inOrder)]

/-- A field that an accepted entry has. -/
def require {A : Type} (field : Option A) : Pass A :=
  match field with
  | some value => pure value
  | none => raise "KeyError"

def entryOf (slot : Slot) : Pass Entry := do
  let memory ← Script.recalled
  require (memory.entries.get? slot.key)

def putEntry (slot : Slot) (entry : Entry) : Pass Unit :=
  Script.remember fun memory => { memory with entries := memory.entries.insert slot.key entry }

def putState (slot : Slot) (state : State) : Pass Unit := do
  let entry ← entryOf slot
  putEntry slot { entry with state := state }

def countCovered : Pass Unit := Script.remember fun memory => { memory with covered := memory.covered + 1 }
def countPlanned : Pass Unit := Script.remember fun memory => { memory with planned := memory.planned + 1 }
def countConfirmed : Pass Unit := Script.remember fun memory => { memory with confirmed := memory.confirmed + 1 }
def countError : Pass Unit := Script.remember fun memory => { memory with errors := memory.errors + 1 }

section GitHub

def repo : String := "duduvcastro/c3po-chief-of-staff-intelligence"
def repoId : String := "1336399383"
def issue : String := "501"

def nextPath (resource : String) (target : Target) : Except String String :=
  if target.scheme ≠ "https" ∨ target.netloc ≠ "api.github.com" ∨
      target.path ∉ ["/repos/" ++ repo ++ resource, "/repositories/" ++ repoId ++ resource] ∨
      target.fragment ≠ "" ∨ target.query = "" then .error "untrusted_pagination_target"
  else .ok (resource ++ "?" ++ target.query)

/-- The count the first page told, where the listing is counted. -/
def expectedCount (counted : Bool) (expected total : Option Int) : Except String (Option Int) :=
  if ¬counted then .ok none
  else
    match total with
    | none => .error "invalid_run_listing"
    | some total =>
        if total < 0 then .error "invalid_run_listing"
        else if 1000 ≤ total then .error "run_listing_capped"
        else .ok (some (expected.getD total))

def follow {R : Type} (resource : String) (page : Page R) (rows : List R) (expected : Option Int) :
    Except String (Option String) :=
  if page.linked ∧ page.links = [] then .error "invalid_pagination_link"
  else
    match page.links.filter fun link => link.2 = "next" with
    | [] => if expected.any fun expected => (rows.length : Int) < expected then .error "incomplete_run_listing" else .ok none
    | [target] => (nextPath resource target.1).map some
    | _ => .error "invalid_pagination_link"

def pagesFrom {R : Type} (get : Answer → Except String (Page R)) (resource : String) (counted : Bool) :
    ℕ → String → List String → List R → Option Int → Pass (List R)
  | 0, _, _, _, _ => raise "pagination_limit"
  | left + 1, path, seen, rows, expected =>
      if path ∈ seen then raise "pagination_cycle"
      else do
        let answer ← Script.ask
        let page ← Script.outcome (get answer)
        let expected ← Script.outcome (expectedCount counted expected page.totalCount)
        match page.rows with
        | none => raise "invalid_page"
        | some chunk =>
            match ← Script.outcome (follow resource page (rows ++ chunk) expected) with
            | none => pure (rows ++ chunk)
            | some next => pagesFrom get resource counted left next (path :: seen) (rows ++ chunk) expected

def pages {R : Type} (get : Answer → Except String (Page R)) (resource query : String) (counted : Bool) :
    Pass (List R) :=
  pagesFrom get resource counted 20 (resource ++ "?" ++ query ++ "&per_page=100") [] [] none

def quote (text : String) : String :=
  String.join (text.toList.map fun letter => if letter = ':' then "%3A" else letter.toString)

def acceptRow (slot : Slot) (seen : List Int) (row : Row) : Except String Run :=
  let expected := ".github/workflows/" ++ slot.workflow
  match row.id with
  | none => .error "invalid_run_identity"
  | some id =>
      if id ≤ 0 ∨ id ∈ seen then .error "invalid_run_identity"
      else if (row.path ≠ expected ∧ ¬(expected ++ "@").toList.isPrefixOf row.path.toList) ∨
          row.headBranch ≠ some "main" then .error "unexpected_run"
      else
        match row.createdAt, row.status, row.displayTitle with
        | none, _, _ => .error "invalid_timestamp"
        | some created, some status, some title => .ok ⟨id, status, created, title, row.event, row.headSha⟩
        | _, _, _ => .error "invalid_run"

def acceptRows (slot : Slot) (rows : List Row) : Except String (List Run) :=
  rows.foldlM (fun runs row => do
    let run ← acceptRow slot (runs.map Run.id) row
    pure (runs ++ [run])) []

def runListing (slot : Slot) (now : Int) : Pass (List Run) := do
  let since := min slot.instant (now - 2 * secondsADay)
  let resource := "/actions/workflows/" ++ slot.workflow ++ "/runs"
  let rows ← pages Answer.runs resource ("branch=main&created=%3E%3D" ++ quote (stamp since)) true
  let runs ← Script.outcome (acceptRows slot rows)
  record (.listed slot runs)
  pure runs

def occursIn (part whole : String) : Bool := decide (part.toList <:+: whole.toList)

/-- The schedule that a run of the report names is another one. -/
def otherCron (zone : Zone) (slot : Slot) (run : Run) : Bool :=
  slot.workflow = ops && run.event = some "schedule" && occursIn "[schedule:" run.displayTitle &&
    !occursIn ("[schedule:" ++ (if zone.minuteOfDay slot.instant / 60 = 3 then "30 6 * * *" else "30 11 * * *") ++ "]")
      run.displayTitle

/-- The runs account for the slot. -/
def covered (zone : Zone) (slot : Slot) (now : Int) : List Run → Except String Bool
  | [] => .ok false
  | run :: rest =>
      -- queued and waiting runs are not missed schedules
      if run.status ≠ "completed" then .ok true
      else if run.event ∉ [some "schedule", some "workflow_dispatch"] ∨
          ¬(slot.instant ≤ run.createdAt ∧ run.createdAt ≤ now) then covered zone slot now rest
      else if occursIn "[recovery:" run.displayTitle then
        if occursIn slot.tag run.displayTitle then .ok true else covered zone slot now rest
      else if otherCron zone slot run then covered zone slot now rest
      else if slot.workflow = exporter ∧ run.event = some "workflow_dispatch" ∧
          ¬occursIn "last-completed" run.displayTitle then .error "ambiguous_export_night"
      else .ok true

end GitHub

section Reconcile

def matching (slot : Slot) (headSha : Option String) (before attempted : Int) (run : Run) : Bool :=
  before < run.id && run.event = some "workflow_dispatch" && occursIn slot.tag run.displayTitle &&
    run.headSha = headSha && attempted - 5 ≤ run.createdAt

def confirmRun (slot : Slot) (runs : List Run) : Pass Bool := do
  let entry ← entryOf slot
  let before ← require entry.beforeId
  let attempted ← require entry.attemptedAt
  match runs.filter (matching slot entry.headSha before attempted) with
  | [] => pure false
  | [run] =>
      putEntry slot { entry with state := .runConfirmed, runId := some run.id }
      pure true
  | _ => raise "multiple_recovery_runs"

def noticeBody (slot : Slot) (runId : Int) : String :=
  "<!-- c3po-workflow-recovery:" ++ slot.key ++ ":" ++ toString runId ++ " -->\n" ++
    "Recuperação de agendamento `" ++ slot.workflow ++ "`, slot `" ++ stamp slot.instant ++ "`: [run " ++
    toString runId ++ "](https://github.com/" ++ repo ++ "/actions/runs/" ++ toString runId ++ ") confirmado; " ++
    "despacho de recuperação registrado, resultado do workflow ainda deve ser conferido."

def commentListing (attempted : Int) : Pass (List Comment) :=
  pages Answer.comments ("/issues/" ++ issue ++ "/comments") ("since=" ++ quote (stamp attempted)) false

def completeNotice (slot : Slot) (id : Int) : Pass Unit := do
  let entry ← entryOf slot
  putEntry slot { entry with state := .complete, commentId := some id }

/-- The post of a notice, and its confirmation by a listing of its own. -/
def postNotice (slot : Slot) (body : String) (attempted : Int) : Pass Unit := do
  record (.noticed slot)
  let answer ← Script.ask
  let result ← Script.outcome answer.noticed
  match result.id with
  | none => raise "notice_not_confirmed"
  | some id =>
      if result.body ≠ some body then raise "notice_not_confirmed"
      else
        let comments ← commentListing attempted
        if comments.any fun comment => comment.id = some id && comment.body = some body then completeNotice slot id
        else raise "notice_not_confirmed"

/-- The notice from its durable intent on. -/
def announce (slot : Slot) (body : String) (attempted : Int) : Pass Unit := do
  if ← mayWrite then
    (postNotice slot body attempted).attempt fun _ => do
      putState slot .noticeUnknown
      save
      raise "notice_outcome_unknown"
    save
  else
    -- no post was attempted, so unlike a lost answer this can resume
    putState slot .runConfirmed
    save

def publishNotice (slot : Slot) : Pass Unit := do
  let entry ← entryOf slot
  let runId ← require entry.runId
  let attempted ← require entry.attemptedAt
  let body := noticeBody slot runId
  let comments ← commentListing attempted
  match comments.filter fun comment => comment.body = some body with
  | [⟨some id, _⟩] =>
      completeNotice slot id
      save
  | _ :: _ => raise "multiple_recovery_notices"
  | [] =>
      if entry.state ∈ [State.noticeIntent, .noticeUnknown] then raise "notice_outcome_unknown"
      else if ← mayWrite then
        putState slot .noticeIntent
        save
        announce slot body attempted
      else pure ()

end Reconcile

section Recover
variable (zone : Zone) (act : Bool)

def poll (slot : Slot) : ℕ → Pass Unit
  | 0 => pure ()
  | left + 1 => do
      let now ← currentTime
      let runs ← runListing slot now
      if ← confirmRun slot runs then save else poll slot left

def mainSha : Pass (Option String) := do
  let answer ← Script.ask
  Script.outcome answer.main

def accounted (slot : Slot) : Pass (List Run × Bool) := do
  let before ← currentTime
  let runs ← runListing slot before
  let now ← currentTime
  let found ← Script.outcome (covered zone slot now runs)
  pure (runs, found)

/-- The post of a dispatch; whether it arrived is not known from its answer. -/
def postDispatch (slot : Slot) : Pass Unit := do
  record (.dispatched slot)
  let answer ← Script.ask
  Script.outcome answer.dispatched

/-- The dispatch from its durable intent on; true when it was sent. -/
def send (slot : Slot) : Pass Bool := do
  if ← mayWrite then
    let late ← currentTime
    if slot.due late then
      (postDispatch slot).attempt fun _ => do
        putState slot .dispatchUnknown
        save
      poll slot 12
      pure true
    else
      -- the intent is known to be unsent, so it expires
      putState slot .skipped
      save
      countCovered
      pure false
  else
    putState slot .dispatchHeld
    save
    countCovered
    pure false

/-- The entry of an attempt, before anything is sent. -/
def intentOf (slot : Slot) (live : Int) (main : Option String) (runs : List Run) : Entry where
  workflow := slot.workflow
  slot := some slot.instant
  state := .dispatchIntent
  attemptedAt := some live
  headSha := main
  beforeId := some ((runs.map Run.id).foldl max 0)
  runId := none
  commentId := none

/-- A slot with no attempt of its own; true when it was dispatched. -/
def missed (slot : Slot) (runs : List Run) : Pass Bool := do
  let answer ← Script.ask
  let workflow ← Script.outcome answer.workflow
  if workflow ≠ some "active" then raise "workflow_not_active"
  else
    let now ← currentTime
    if ← Script.outcome (covered zone slot now runs) then
      countCovered
      pure false
    else if !act then
      countPlanned
      pure false
    else
      let main ← mainSha
      if ¬isSha main then raise "main_revision_unavailable"
      else
        -- the last listing closes the ordinary race with delayed schedules
        let (runs, found) ← accounted zone slot
        if found then
          countCovered
          pure false
        else
          let checked ← mainSha
          if checked ≠ main then raise "main_revision_changed"
          else
            let live ← currentTime
            if !slot.due live then
              countCovered
              pure false
            else if ← mayWrite then
              putEntry slot (intentOf slot live main runs)
              save
              send slot
            else
              countCovered
              pure false

/-- The outcome of a dispatch, and its notice. -/
def settle (slot : Slot) : Pass Unit := do
  let entry ← entryOf slot
  if entry.state ∈ [State.dispatchIntent, .dispatchUnknown] then
    if act then
      putState slot .dispatchUnknown
      save
    raise "dispatch_outcome_unknown"
  else
    countConfirmed
    if act then publishNotice slot

def attemptMissed (slot : Slot) : Pass Unit := do
  let now ← currentTime
  let runs ← runListing slot now
  if ← missed zone act slot runs then settle act slot

def resume (slot : Slot) (state : State) : Pass Unit := do
  let now ← currentTime
  let runs ← runListing slot now
  if state ∈ [State.dispatchIntent, .dispatchUnknown] then
    if ← confirmRun slot runs then
      if act then save
  settle act slot

def recoverSlot (slot : Slot) : Pass Unit := do
  let memory ← Script.recalled
  match memory.entries.get? slot.key with
  | none => attemptMissed zone act slot
  | some entry =>
      if entry.state ∈ [State.complete, .skipped] then countCovered
      else if entry.state = .dispatchHeld then
        let now ← currentTime
        if slot.due now then attemptMissed zone act slot
        else
          if act then
            putState slot .skipped
            save
          countCovered
      else resume act slot entry.state

/-- The slots that are due, and those whose outcome is open. -/
def candidates (now : Int) (entries : Entries) : Except String (Dict String Slot) :=
  entries.entries.foldlM (fun found entry =>
    if entry.2.state ∉ [State.complete, .skipped] ∧ entry.2.workflow ∉ retiredWorkflows then do
      let slot ← validateSlot zone entry.2.workflow entry.2.slot
      pure (found.insert entry.1 slot)
    else pure found)
    ((slots zone now).foldl (fun found slot => found.insert slot.key slot) Dict.empty)

def recover : Pass Unit := do
  let now ← currentTime
  let memory ← Script.recalled
  let candidates ← Script.outcome (candidates zone now memory.entries)
  candidates.entries.foldlM (fun _ candidate =>
    (recoverSlot zone act candidate.2).attempt fun _ => countError) ()

/-- One pass, as the lock admits it. -/
def main : Pass Unit := do
  if ← mayWrite then
    openLedger zone
    recover zone act
  else pure ()

/-- The body of a pass, as a process. -/
def body : Program Trace Answer (Except String Unit × Memory) := main zone act Memory.initial

end Recover

end C3po.Schedule
