import C3po.Library.Latest
import C3po.Library.Loops
import C3po.Live.Engine

/-! The stream's tapes across a restart and a recovered opening.

A restart holds the trades the feed delivers until the saved tapes are installed. A recovered
opening has its tapes from minute bars before a cut, and from the feed from it on. Instants
are microseconds, a bar's start is milliseconds and a stamp is epoch seconds.
-/

set_option autoImplicit false

namespace C3po.Live
open C3po.Library

/-- A trade of a symbol, as the feed delivers it. -/
structure Arrival where
  symbol : String
  price : ℚ
  size : ℚ
  instant : Int
  deriving DecidableEq, Repr

structure Stream where
  session : Option Int := none
  tapes : Dict String Tape := Dict.empty
  /-- The trades held until a restore, in arrival order. -/
  pending : Option (List (String × Trade)) := none
  restoredMinute : Option Int := none
  floor : Option ℚ := none

def Zone.minute (zone : Zone) (instant : Int) : Int := zone.time instant / 60000000

def sessionOpen : Int := clockTime 9 30 0

def timestamp (instant : Int) : ℚ := instant / 1000000

def Arrival.trade (zone : Zone) (arrival : Arrival) : Trade :=
  { price := arrival.price, size := arrival.size
    minute := zone.minute arrival.instant, stamp := timestamp arrival.instant }

def addTo (tapes : Dict String Tape) (symbol : String) (trade : Trade) : Dict String Tape :=
  tapes.insert symbol ((tapes.getD symbol {}).record trade)

def addAll (tapes : Dict String Tape) (entries : List (String × Trade)) : Dict String Tape :=
  entries.foldl (fun tapes entry => addTo tapes entry.1 entry.2) tapes

namespace Stream

def startSession (day : Int) (restoring : Bool) (floor : Option ℚ) : Stream :=
  { session := some day, pending := if restoring then some [] else none, floor := floor }

/-- Only a pending restore installs anything. -/
def restore (zone : Zone) (context : Dict String Tape) (now : Int) (stream : Stream) : Stream :=
  match stream.pending with
  | none => stream
  | some held =>
      { stream with
        restoredMinute := some (zone.minute now)
        tapes := addAll context held
        pending := none }

def recordTrade (zone : Zone) (stream : Stream) (arrival : Arrival) : Stream :=
  if stream.session ≠ some (zone.date arrival.instant) ∨ zone.time arrival.instant < sessionOpen then stream
  else if stream.floor.any fun floor => timestamp arrival.instant < floor then stream
  else
    match stream.pending with
    | some held => { stream with pending := some (held ++ [(arrival.symbol, arrival.trade zone)]) }
    | none => { stream with tapes := addTo stream.tapes arrival.symbol (arrival.trade zone) }

def liveSignal (stream : Stream) (symbol : String) : Option (ℚ × ℚ) := do
  let tape ← stream.tapes.get? symbol
  let lastPrice ← tape.lastPrice
  let vwap ← tape.vwap
  if stream.restoredMinute.any fun minute => tape.minute ≤ minute then none else some (lastPrice, vwap)

end Stream

/-- A minute bar, as the service answers it. -/
structure Bar where
  t : Int
  opening : ℚ
  close : ℚ
  volume : ℚ
  vw : Option ℚ
  deriving DecidableEq, Repr

namespace Bar

/-- The bar's own VWAP; its close when it has none. -/
def average (bar : Bar) : ℚ :=
  match bar.vw with
  | some vw => if vw = 0 then bar.close else vw
  | none => bar.close

def stamp (bar : Bar) : ℚ := bar.t / 1000

end Bar

def addBar (zone : Zone) (last : Int) (tape : Tape) (bar : Bar) : Except String Tape :=
  if bar.t > last then .ok tape
  else if ¬ (0 < bar.stamp ∧ 0 < bar.opening ∧ 0 < bar.close ∧ 0 < bar.average) ∨ bar.volume < 0 then
    .error "a minute bar that is no number"
  else
    let minute := zone.minute (bar.t * 1000)
    .ok (((tape.add bar.opening 0 minute bar.stamp).add bar.average bar.volume minute (bar.stamp + 1 / 1000)).add
      bar.close 0 minute (bar.stamp + 2 / 1000))

def lastBefore (cut : Int) : Int := cut / 1000 - 1

/-- A name's session before the cut; none when it has no bar. -/
def massiveMinuteTape (zone : Zone) (cut : Int) (bars : List Bar) : Except String (Option Tape) := do
  let tape ← bars.foldlM (addBar zone (lastBefore cut)) {}
  pure (if tape.opening.isSome then some tape else none)

/-- A restart: what is delivered while it is pending, the restore, and what is delivered after. -/
def restarted (zone : Zone) (day : Int) (floor : Option ℚ) (context : Dict String Tape) (now : Int)
    (held direct : List Arrival) : Stream :=
  direct.foldl (Stream.recordTrade zone)
    (Stream.restore zone context now (held.foldl (Stream.recordTrade zone) (Stream.startSession day true floor)))

/-- Whether a trade reaches a tape of the day. -/
def Arrival.accepted (zone : Zone) (day : Int) (floor : Option ℚ) (arrival : Arrival) : Bool :=
  zone.date arrival.instant = day && sessionOpen ≤ zone.time arrival.instant &&
    floor.all fun floor => floor ≤ timestamp arrival.instant

def taken (zone : Zone) (day : Int) (floor : Option ℚ) (symbol : String) (arrivals : List Arrival) : List Trade :=
  (arrivals.filter fun arrival => arrival.symbol = symbol && arrival.accepted zone day floor).map
    (Arrival.trade zone)

/-- A tape that records trades; it begins with the first of them. -/
def played (tape : Option Tape) (trades : List Trade) : Option Tape :=
  trades.foldl (fun tape trade => some ((tape.getD {}).record trade)) tape

section Arrivals
variable {zone : Zone} {day : Int} {floor : Option ℚ} {stream : Stream} {arrival : Arrival} {symbol : String}

theorem recordTrade_eq (session : stream.session = some day) (sameFloor : stream.floor = floor) :
    stream.recordTrade zone arrival =
      if arrival.accepted zone day floor then
        match stream.pending with
        | some held => { stream with pending := some (held ++ [(arrival.symbol, arrival.trade zone)]) }
        | none => { stream with tapes := addTo stream.tapes arrival.symbol (arrival.trade zone) }
      else stream := by
  unfold Stream.recordTrade Arrival.accepted
  rw [session, sameFloor]
  by_cases today : zone.date arrival.instant = day
  · by_cases before : zone.time arrival.instant < sessionOpen
    · simp [before, today]
    · cases floor with
      | none => simp [today, before, not_lt.mp before]
      | some floor =>
        by_cases early : timestamp arrival.instant < floor
        · simp [today, before, early]
        · simp [today, before, early, not_lt.mp before, not_lt.mp early]
  · simp [today, Ne.symm today]

def takenAll (zone : Zone) (day : Int) (floor : Option ℚ) (arrivals : List Arrival) : List (String × Trade) :=
  (arrivals.filter fun arrival => arrival.accepted zone day floor).map fun arrival =>
    (arrival.symbol, arrival.trade zone)

theorem takenAll_symbol (arrivals : List Arrival) :
    ((takenAll zone day floor arrivals).filter fun entry => entry.1 = symbol).map Prod.snd =
      taken zone day floor symbol arrivals := by
  unfold takenAll taken
  rw [List.filter_map, List.filter_filter, List.map_map]
  rfl

theorem held_arrivals (arrivals : List Arrival) (before : List (String × Trade))
    (session : stream.session = some day) (sameFloor : stream.floor = floor)
    (pending : stream.pending = some before) :
    arrivals.foldl (Stream.recordTrade zone) stream =
      { stream with pending := some (before ++ takenAll zone day floor arrivals) } := by
  induction arrivals generalizing stream before with
  | nil =>
    unfold takenAll
    simp only [List.foldl_nil, List.filter_nil, List.map_nil, List.append_nil, ← pending]
  | cons arrival rest ih =>
    rw [List.foldl_cons, recordTrade_eq session sameFloor]
    unfold takenAll at ih ⊢
    cases accepted : arrival.accepted zone day floor with
    | false =>
      rw [List.filter_cons_of_neg (by simp [accepted])]
      exact ih before session sameFloor pending
    | true =>
      rw [List.filter_cons_of_pos accepted, pending]
      refine (@ih { stream with pending := some (before ++ [(arrival.symbol, arrival.trade zone)]) }
        _ session sameFloor rfl).trans ?_
      simp

theorem direct_arrivals (arrivals : List Arrival) (session : stream.session = some day)
    (sameFloor : stream.floor = floor) (live : stream.pending = none) :
    arrivals.foldl (Stream.recordTrade zone) stream =
      { stream with tapes := addAll stream.tapes (takenAll zone day floor arrivals) } := by
  induction arrivals generalizing stream with
  | nil => rfl
  | cons arrival rest ih =>
    rw [List.foldl_cons, recordTrade_eq session sameFloor]
    unfold takenAll at ih ⊢
    cases accepted : arrival.accepted zone day floor with
    | false =>
      rw [List.filter_cons_of_neg (by simp [accepted])]
      exact ih session sameFloor live
    | true =>
      rw [List.filter_cons_of_pos accepted, live]
      exact @ih { stream with tapes := addTo stream.tapes arrival.symbol (arrival.trade zone), pending := none }
        session sameFloor rfl

theorem addAll_get (tapes : Dict String Tape) (entries : List (String × Trade)) :
    (addAll tapes entries).get? symbol =
      played (tapes.get? symbol) ((entries.filter fun entry => entry.1 = symbol).map Prod.snd) := by
  refine (Dict.get?_foldl Prod.fst (fun entry tape => (tape.getD {}).record entry.2) entries tapes symbol).trans ?_
  unfold played
  rw [List.foldl_map]

theorem restarted_eq (context : Dict String Tape) (now : Int) (held direct : List Arrival) :
    restarted zone day floor context now held direct =
      { session := some day, floor := floor, restoredMinute := some (zone.minute now), pending := none
        tapes := addAll context (takenAll zone day floor (held ++ direct)) } := by
  unfold restarted
  rw [held_arrivals held [] rfl rfl rfl, direct_arrivals direct rfl rfl rfl]
  unfold takenAll addAll
  rw [List.filter_append, List.map_append, List.foldl_append]
  rfl

theorem restarted_tape (context : Dict String Tape) (now : Int) (held direct : List Arrival) :
    (restarted zone day floor context now held direct).tapes.get? symbol =
      played (context.get? symbol) (taken zone day floor symbol (held ++ direct)) := by
  rw [restarted_eq, addAll_get, takenAll_symbol]

end Arrivals

end C3po.Live
