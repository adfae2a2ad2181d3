import C3po.Library.Script
import Mathlib.Data.Nat.Notation

/-! The reboots of the host: what the controller stores and marks around one, and the
passes that clear up after it.

Requests and passes hold the deployment lock, so one runs at a time; the host reboots when
it likes. Boots are numbered, and time is counted in microseconds.
-/

set_option autoImplicit false

namespace C3po.Reboot
open C3po.Library

def minute : ℕ := 60 * 1000000
def day : ℕ := 24 * 60 * minute

inductive Status where
  | requested
  | verifying
  | verified
  | failed
  deriving DecidableEq, Repr

/-- `security-reboot-state.json`. -/
structure Record where
  status : Status
  bootId : ℕ
  requestedAt : ℕ
  error : Option String
  verifiedAt : Option ℕ
  currentBootId : Option ℕ
  deriving DecidableEq, Repr

/-- `reboot-schedulers.json`. -/
structure Receipt where
  timers : List String
  cronPid : ℕ
  cronStart : Option ℕ
  bootId : ℕ
  restored : Bool
  deriving DecidableEq, Repr

/-- A reboot that was asked for. -/
structure Request where
  bootId : ℕ
  requestedAt : ℕ
  deriving DecidableEq, Repr

/-- The host. Its processes are known by the instant they started; `marker` lies in `/run`
and `pending` in the directory of the maintenance gate. The last fields note what the
controller did, and no code reads them: the timers it stopped and the process it suspended
that nothing set going since, the requests, and whether a failed request still has its
markers to remove. -/
structure World where
  bootId : ℕ
  clock : ℕ
  processes : ℕ → Option ℕ
  state : Option Record
  marker : Option ℕ
  pending : Option ℕ
  schedulers : Option Receipt
  reached : Option ℕ
  stopped : List String
  suspended : Option (ℕ × ℕ)
  requests : List Request
  handling : Bool

/-- What one question may be answered; each question reads its own fields. -/
structure Answer where
  elapsed : ℕ
  lag : ℕ
  processes : ℕ → Option ℕ
  write : Script.Replacement
  output : Except String String
  told : Except String Bool
  listed : Except String (List String)
  pid : Except String ℕ

inductive Outcome where
  | passed (now : ℕ)
  | ended (action : String)
  | rebooted
  deriving DecidableEq, Repr

abbrev Pass (A : Type) := Script Unit World Answer String A

def raise {A : Type} (code : String) : Pass A := Script.raise code

/-- Time passes, and processes come and go. -/
def World.after (world : World) (answer : Answer) : World :=
  { world with
    clock := world.clock + answer.elapsed
    processes := answer.processes
    suspended := world.suspended.filter fun process => answer.processes process.1 = some process.2 }

def observe : Pass Answer := do
  let answer ← Script.ask
  Script.step fun world => world.after answer
  pure answer

/-- A command that tells something. -/
def command : Pass String := do
  let answer ← observe
  Script.outcome answer.output

def probe : Pass Bool := do
  let answer ← observe
  Script.outcome answer.told

/-- A file written or removed, or a command that acts. -/
def act (effect : World → World) : Pass Unit := do
  let answer ← observe
  Script.replace (fun _ => answer.write) "OSError" effect

/-- The clock as it was read some time ago. -/
def reading : Pass ℕ := do
  let answer ← observe
  let clock ← Script.look World.clock
  pure (clock - answer.lag)

section Schedulers

/-- A signal to a process; where there is none by that number it raises. -/
def signal (pid : ℕ) (effect : World → World) : Pass Unit := do
  let _ ← observe
  match ← Script.look fun world => world.processes pid with
  | none => raise "ProcessLookupError"
  | some _ => Script.step effect

def World.resumed (world : World) (pid : ℕ) : World :=
  { world with suspended := world.suspended.filter fun process => process.1 ≠ pid }

/-- The controller's own timers are not stopped. -/
def ownTimers : List String := ["c3po-security-watchdog.timer", "c3po-security-daily.timer"]

def unitLetter (letter : Char) : Bool :=
  letter.isAlphanum || letter = '_' || letter = '.' || letter = '@' || letter = ':' || letter = '-'

def isTimer (unit : String) : Bool :=
  let letters := unit.toList
  ".timer".toList.isSuffixOf letters && 6 < letters.length && letters.all unitLetter

def resumeCron (receipt : Receipt) : Pass Unit := do
  let boot ← Script.look World.bootId
  if receipt.bootId = boot then
    let start ← Script.look fun world => world.processes receipt.cronPid
    if receipt.cronPid ≠ 0 ∧ start = receipt.cronStart then
      signal receipt.cronPid fun world => world.resumed receipt.cronPid
    else pure ()
  else pure ()

def startTimers (timers : List String) : Pass Unit :=
  if timers = [] then pure ()
  else act fun world => { world with stopped := world.stopped.filter (· ∉ timers) }

def writeReceipt (receipt : Receipt) : Pass Unit := act fun world => { world with schedulers := some receipt }

def restore : Pass Unit := do
  match ← Script.look World.schedulers with
  | none => pure ()
  | some receipt =>
      if receipt.restored then pure ()
      else
        resumeCron receipt
        startTimers receipt.timers
        writeReceipt { receipt with restored := true }

/-- The receipt of a pause: the timers that run, and the main process of cron. -/
def surveyed : Pass Receipt := do
  let answer ← observe
  let units ← Script.outcome answer.listed
  let timers := units.filter (· ∉ ownTimers)
  if timers.any fun unit => !isTimer unit then raise "RuntimeError"
  else
    let answer ← observe
    let pid ← Script.outcome answer.pid
    let start ← Script.look fun world => if pid = 0 then none else world.processes pid
    let boot ← Script.look World.bootId
    pure ⟨timers, pid, start, boot, false⟩

def stopTimers (timers : List String) : Pass Unit :=
  if timers = [] then pure ()
  else act fun world => { world with stopped := timers ++ world.stopped }

/-- Only the main process of cron is suspended, and only if it is the one that was found. -/
def suspendCron (receipt : Receipt) : Pass Unit :=
  if receipt.cronPid = 0 then pure ()
  else do
    let _ ← observe
    match ← Script.look fun world => world.processes receipt.cronPid with
    | none => raise "ProcessLookupError"
    | some start =>
        if some start ≠ receipt.cronStart then raise "RuntimeError"
        else Script.step fun world => { world with suspended := some (receipt.cronPid, start) }

def pause : Pass Receipt := do
  let receipt ← surveyed
  writeReceipt receipt
  (do stopTimers receipt.timers; suspendCron receipt).attempt fun raised => do
    restore
    raise raised
  pure receipt

end Schedulers

section Receipt

def writeState (record : Record) : Pass Unit := act fun world => { world with state := some record }

def removeMarker : Pass Unit := act fun world => { world with marker := none }
def removePending : Pass Unit := act fun world => { world with pending := none }

/-- The host is healthy and asks for no other reboot; a probe that raises says no. -/
def verifies : Pass Bool :=
  (do
    if ← probe then
      let required ← probe
      pure !required
    else pure false).attempt fun _ => pure false

/-- The revision and the containers after the reboot, where it is verified. -/
def evidence (ok : Bool) : Pass Unit :=
  if ok then do
    let _ ← command
    let _ ← command
    let _ ← command
    pure ()
  else pure ()

def verifiedIn (boot : ℕ) (state : Option Record) : Bool :=
  state.any fun record => record.status = .verified && record.currentBootId = some boot

/-- Nothing waits for a reboot. -/
def settled (state : Option Record) : Pass (Option Record) := do
  restore
  let boot ← Script.look World.bootId
  if verifiedIn boot state then
    removeMarker
    removePending
    pure state
  else pure state

/-- The reboot has not come: after a quarter of an hour it failed. -/
def awaited (now : ℕ) (record : Record) : Pass (Option Record) :=
  if 15 * minute < now - record.requestedAt then do
    removeMarker
    removePending
    restore
    let record := { record with status := .failed, error := some "reboot_did_not_happen" }
    writeState record
    pure (some record)
  else pure (some record)

/-- The host has rebooted since the request. -/
def rebooted (now boot : ℕ) (record : Record) : Pass (Option Record) := do
  restore
  removeMarker
  removePending
  let ok ← verifies
  evidence ok
  let record := { record with
    status := if ok then .verified else .verifying
    verifiedAt := if ok then some now else none
    currentBootId := some boot }
  writeState record
  pure (some record)

/-- `_boot_receipt_locked`. -/
def bootReceipt (now : ℕ) : Pass (Option Record) := do
  let boot ← Script.look World.bootId
  match ← Script.look World.state with
  | none => settled none
  | some record =>
      if record.status ≠ .requested ∧ record.status ≠ .verifying then settled (some record)
      else if record.bootId = boot then awaited now record
      else rebooted now boot record

end Receipt

section Requests

/-- One of the questions is answered with yes. -/
def anyTold : List String → Pass Bool
  | [] => pure false
  | _ :: rest => do
      if ← probe then pure true else anyTold rest

def anyOutput (busy : List String) : List String → Pass Bool
  | [] => pure false
  | _ :: rest => do
      let output ← command
      if output ∈ busy then pure true else anyOutput busy rest

def pipelineStates : List String := ["queued", "in_progress", "waiting", "requested", "pending"]
def packageUnits : List String := ["apt-daily.service", "apt-daily-upgrade.service"]

def cooling (now : ℕ) (state : Option Record) : Bool := state.any fun previous => now - previous.requestedAt < day

def databaseBusy : Pass Bool := do
  let busy ← command
  pure (busy ≠ "0")

/-- What is seen of the host before anything is held. -/
def observations : Pass (Option String) := do
  if !(← probe) then pure (some "deferred")
  else if !(← probe) then pure (some "deferred")
  else if ← anyTold pipelineStates then pure (some "waiting_pipeline")
  else if ← anyOutput ["active", "activating"] packageUnits then pure (some "waiting_packages")
  else
    let _ ← command
    if ← databaseBusy then pure (some "waiting_database_work")
    else
      let _ ← command
      let _ ← command
      if ← databaseBusy then pure (some "waiting_ingestion_work") else pure none

/-- The locks of packages and deployments, the drain of the gate, and the containers' coverage. -/
def drained : Pass (Option String) := do
  if ← probe then pure (some "waiting_packages_or_deploy")
  else if ← probe then pure (some "waiting_admission")
  else if !(← probe) then pure (some "waiting_active_jobs")
  else if !(← probe) then pure (some "waiting_admission_coverage")
  else pure none

/-- A service that a timer triggers runs. -/
def triggeredBusy : List String → Pass Bool
  | [] => pure false
  | _ :: rest => do
      let answer ← observe
      let services ← Script.outcome answer.listed
      if ← anyOutput ["active", "activating", "deactivating"] services then pure true else triggeredBusy rest

/-- `idle`: no service of a stopped timer runs, and cron has no children. -/
def idle (receipt : Receipt) : Pass Bool := do
  if ← triggeredBusy receipt.timers then pure false
  else if receipt.cronPid = 0 then pure true
  else
    let _ ← command
    let children ← probe
    pure !children

/-- What is seen again with admission closed and the schedulers paused. -/
def lastObservations (receipt : Receipt) : Pass (Option String) := do
  if !(← idle receipt) then pure (some "waiting_scheduled_jobs")
  else if ← databaseBusy then pure (some "waiting_database_work")
  else if !(← probe) then pure (some "deferred")
  else pure none

def Record.request (record : Record) : Request := ⟨record.bootId, record.requestedAt⟩

def writeRequest (record : Record) : Pass Unit :=
  act fun world => { world with state := some record, requests := record.request :: world.requests }

def writeFailed (record : Record) : Pass Unit :=
  act fun world => { world with state := some record, handling := true }

/-- The last file that is removed of a request that failed. -/
def retractPending : Pass Unit := act fun world => { world with pending := none, handling := false }

/-- The two markers, and the command. -/
def publish (boot : ℕ) : Pass Unit := do
  act id
  act fun world => { world with marker := some boot }
  act fun world => { world with pending := some boot }
  act id

def withdraw (record : Record) (raised : String) : Pass Unit := do
  writeFailed { record with status := .failed, error := some "reboot_request_failed" }
  removeMarker
  retractPending
  raise raised

/-- The request is stored, then marked, then made. -/
def submit (boot : ℕ) : Pass Unit := do
  let _ ← observe
  let requestedAt ← Script.look World.clock
  let _ ← command
  let record : Record := ⟨.requested, boot, requestedAt, none, none, none⟩
  writeRequest record
  (publish boot).attempt (withdraw record)

/-- What is done while the schedulers are paused; they stay paused for a reboot only. -/
def underPause (boot : ℕ) (receipt : Receipt) : Pass (String × Bool) := do
  match ← lastObservations receipt with
  | some action => pure (action, false)
  | none =>
      submit boot
      pure ("requested", true)

def paused (boot : ℕ) : Pass String := do
  let receipt ← pause
  let (action, keep) ← (underPause boot receipt).attempt fun raised => do
    restore
    raise raised
  if keep then pure action
  else
    restore
    pure action

def requestReboot (now : ℕ) : Pass String := do
  let required ← probe
  let automatic ← probe
  if !required || !automatic then pure "not_needed_or_disabled"
  else
    let boot ← Script.look World.bootId
    if cooling now (← Script.look World.state) then pure "cooldown"
    else
      match ← observations with
      | some action => pure action
      | none =>
          match ← drained with
          | some action => pure action
          | none => paused boot

end Requests

section Host

/-- What happens on the host: a pass of the watchdog, the pass of a cycle, the request of a
cycle whose pass is done, and a reboot. -/
inductive Call where
  | pass
  | cycle
  | request
  | reboot
  deriving DecidableEq, Repr

def reach (now : Option ℕ) : Pass Unit := Script.step fun world => { world with reached := now }

/-- `/run` is empty after a reboot. What the boot itself starts is not counted. -/
def World.rebooted (world : World) (answer : Answer) : World :=
  { world with
    bootId := world.bootId + 1
    clock := world.clock + answer.elapsed
    processes := answer.processes
    marker := none
    reached := none
    suspended := none }

def call : Call → Pass Outcome
  | .pass => do
      let now ← reading
      let _ ← bootReceipt now
      pure (.passed now)
  | .cycle => do
      reach none
      let now ← reading
      let _ ← bootReceipt now
      reach (some now)
      pure (.passed now)
  | .request => do
      match ← Script.look World.reached with
      | none => pure (.ended "idle")
      | some now =>
          reach none
          let action ← requestReboot now
          pure (.ended action)
  | .reboot => do
      let answer ← Script.ask
      Script.step fun world => world.rebooted answer
      pure .rebooted

abbrev Machine := Host World Answer (Except String Outcome × Unit)

def body (kind : Call) : Program World Answer (Except String Outcome × Unit) := call kind ()

/-- A host that never asked for a reboot. -/
def World.installed (bootId clock : ℕ) (processes : ℕ → Option ℕ) : World :=
  ⟨bootId, clock, processes, none, none, none, none, none, [], none, [], false⟩

/-- `admit` goes on. -/
def World.admits (world : World) : Bool := world.pending ≠ some world.bootId

end Host
end C3po.Reboot
