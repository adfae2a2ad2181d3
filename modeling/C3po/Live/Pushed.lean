import C3po.Library.Number
import C3po.Live.Runs
import C3po.Live.Stream

/-! A decoded JSON value, and what reading a number of it comes to.

Finite numbers are exact rationals. What a number reads of a text is a parameter.
-/

set_option autoImplicit false

namespace C3po.Live
open C3po.Library

inductive Value where
  | null
  | bool (value : Bool)
  | int (value : Int)
  | float (value : Number)
  | text (value : String)
  | list (items : List Value)
  | object (fields : List (String × Value))

/-- What a reading raises: a value that is no number, an integer past every float, a value
that cannot be hashed. -/
inductive Raised where
  | notNumber
  | overflow
  | unhashable
  deriving DecidableEq, Repr

namespace Value

def field (name : String) : Value → Value
  | object fields => (fields.lookup name).getD null
  | _ => null

def text? : Value → Option String
  | text value => some value
  | _ => none

def truthy : Value → Bool
  | null => false
  | bool value => value
  | int value => value ≠ 0
  | float value => value ≠ .finite 0
  | text value => value ≠ ""
  | list items => !items.isEmpty
  | object fields => !fields.isEmpty

/-- From here on an integer rounds past the largest float. -/
def floatLimit : Int := 2 ^ 1024 - 2 ^ 970

variable (read : String → Option Number)

def toFloat : Value → Except Raised Number
  | bool value => .ok (.finite (if value then 1 else 0))
  | int value => if |value| < floatLimit then .ok (.finite value) else .error .overflow
  | float value => .ok value
  | text value => (read value).elim (.error .notNumber) .ok
  | null | list _ | object _ => .error .notNumber

/-- A field as a number, zero where it is absent or empty. -/
def number (name : String) (item : Value) : Except Raised Number :=
  let value := item.field name
  if value.truthy then value.toFloat read else .ok (.finite 0)

/-- Three fields read in turn; the first that raises is what the reading raises. -/
def numbers (first second third : String) (item : Value) : Except Raised (Number × Number × Number) := do
  return (← item.number read first, ← item.number read second, ← item.number read third)

/-- Equal to an integer as Python compares them. -/
def equals (wanted : Int) : Value → Bool
  | int value => value = wanted
  | float value => value = .finite wanted
  | bool value => (if value then 1 else 0) = wanted
  | _ => false

/-- Membership in a set of integers hashes the value first. -/
def among (wanted : List Int) : Value → Except Raised Bool
  | list _ | object _ => .error .unhashable
  | value => .ok (wanted.any value.equals)

def anyAmong (wanted : List Int) : List Value → Except Raised Bool
  | [] => .ok false
  | value :: rest =>
      match value.among wanted with
      | .error raised => .error raised
      | .ok true => .ok true
      | .ok false => anyAmong wanted rest

end Value

/-! The NBBO Massive pushes, as the stream keeps it for the held names.

A frame is read whole under the lock, so it is one event; the connection's status and
its forgetting are events of their own, in any order. What a frame read before one of
its items raised is kept until the connection forgets it.
-/

inductive StreamStatus where
  | idle
  | connecting
  | connected
  | error
  | stopped
  deriving DecidableEq, Repr

/-- The counters and the loop's version decide no quote and are left out. -/
structure QuoteStream where
  symbols : List String := []
  /-- Massive's spelling to the engine's. -/
  spelled : Dict String String := Dict.empty
  tradeSink : Bool := false
  tradeSpelled : Dict String String := Dict.empty
  quotes : Dict String Quote := Dict.empty
  /-- The monotonic instant of the last message, in seconds. -/
  lastMessage : ℚ := 0
  status : StreamStatus := .idle

/-- A received frame: none where it is no JSON, and the clocks it was read at. -/
structure PushedFrame where
  payload : Option Value
  /-- Epoch milliseconds. -/
  received : ℚ
  /-- Monotonic seconds. -/
  heard : ℚ

def streamAlive : ℚ := 2
def offExchange : Int := 4
def extendedHours : List Int := [12, 13]
def stampTolerance : ℚ := futureTolerance / 1000

/-- BRK-B is BRK.B to Massive. -/
def massiveSpelling (symbol : String) : String :=
  String.ofList (symbol.toList.map fun char => if char = '-' then '.' else char)

def spellings (symbols : List String) : Dict String String :=
  symbols.foldl (fun spelled symbol => spelled.insert (massiveSpelling symbol) symbol) Dict.empty

/-- Milliseconds to the microsecond they round to. -/
def fromMillis (stamp : ℚ) : Int := halfEven (stamp * 1000)

namespace QuoteStream
variable (zone : Zone) (read : String → Option Number)

/-- The names follow their set, in the order it is iterated in; one entering or leaving drops its NBBO. -/
def setSymbols (stream : QuoteStream) (names : List String) : QuoteStream :=
  let moved := names.filter (· ∉ stream.symbols) ++ stream.symbols.filter (· ∉ names)
  { stream with
    quotes := moved.foldl Dict.erase stream.quotes
    symbols := names
    spelled := spellings names }

def setTradeSink (stream : QuoteStream) (sink : Bool) : QuoteStream := { stream with
  tradeSink := sink
  tradeSpelled := if sink then stream.tradeSpelled else Dict.empty }

def setTradeSymbols (stream : QuoteStream) (names : List String) : QuoteStream :=
  { stream with tradeSpelled := if stream.tradeSink then spellings names else Dict.empty }

def quote (stream : QuoteStream) (symbol : String) (clock : ℚ) : Option Quote :=
  if stream.status ≠ .connected ∨ streamAlive < clock - stream.lastMessage then none
  else stream.quotes.get? symbol

/-- A trade of a followed name; a number that is refused is no trade, one that overflows raises. -/
def tradeOf (stream : QuoteStream) (item : Value) (received : ℚ) : Except Raised (Option Arrival) :=
  match (item.field "sym").text?.bind stream.tradeSpelled.get? with
  | none => .ok none
  | some symbol =>
      if (match item.field "trfi" with | .null => false | _ => true) || (item.field "x").equals offExchange then
        .ok none
      else do
        let extended ← match item.field "c" with
          | .list codes => Value.anyAmong extendedHours codes
          | _ => .ok false
        if extended then return none
        match item.numbers read "p" "s" "t" with
        | .error .notNumber => return none
        | .error raised => .error raised
        | .ok (.finite price, .finite size, .finite stamp) =>
            if 0 < price ∧ 0 ≤ size ∧ 0 < stamp ∧ stamp ≤ received + stampTolerance ∧
                zone.time (fromMillis stamp) < sessionClose then
              return some ⟨symbol, price, size, fromMillis stamp⟩
            else return none
        | .ok _ => return none

/-- A quote of a followed name, kept even crossed; a stamp too far ahead is refused. -/
def quoteOf (stream : QuoteStream) (item : Value) (received : ℚ) : Except Raised (Option (String × Quote)) :=
  match if (item.field "ev").text? = some "Q" then (item.field "sym").text?.bind stream.spelled.get? else none with
  | none => .ok none
  | some symbol =>
      match item.numbers read "bp" "ap" "t" with
      | .error .notNumber => .ok none
      | .error raised => .error raised
      | .ok (.finite bid, .finite ask, .finite stamp) =>
          if 0 < stamp ∧ stamp ≤ received + stampTolerance then
            .ok (some (symbol, ⟨bid, ask, fromMillis stamp⟩))
          else .ok none
      | .ok _ => .ok none

/-- What one item of a frame is: a quote to keep, a trade to hand over, or nothing. -/
def itemOf (stream : QuoteStream) (received : ℚ) (item : Value) :
    Except Raised (Option (String × Quote) × Option Arrival) :=
  if (item.field "ev").text? = some "T" then (stream.tradeOf zone read item received).map fun trade => (none, trade)
  else (stream.quoteOf read item received).map fun quote => (quote, none)

/-- An update older than the one held never replaces it. -/
def keep (quotes : Dict String Quote) (symbol : String) (quote : Quote) : Dict String Quote :=
  match quotes.get? symbol with
  | none => quotes.insert symbol quote
  | some held => if quote.quotedAt < held.quotedAt then quotes else quotes.insert symbol quote

/-- The trades for the sink, and whether an item raised. -/
structure Recorded where
  stream : QuoteStream
  trades : List Arrival
  raised : Bool

def recordItems (received : ℚ) : List Value → QuoteStream → List Arrival → Recorded
  | [], stream, trades => ⟨stream, if stream.tradeSink then trades else [], false⟩
  | item :: rest, stream, trades =>
      match stream.itemOf zone read received item with
      | .error _ => ⟨stream, [], true⟩
      | .ok (quote, trade) =>
          let quotes := quote.elim stream.quotes fun found => keep stream.quotes found.1 found.2
          recordItems received rest { stream with quotes := quotes } (trades ++ trade.toList)

def pushedItems (payload : Value) : List Value :=
  match payload with
  | .list items => items
  | item => [item]

def record (stream : QuoteStream) (frame : PushedFrame) : Recorded :=
  match frame.payload with
  | none => ⟨stream, [], false⟩
  | some payload => recordItems zone read frame.received (pushedItems payload)
      { stream with lastMessage := frame.heard } []

/-- Every connection starts blind. -/
def forget (stream : QuoteStream) : QuoteStream := { stream with quotes := Dict.empty, lastMessage := 0 }

end QuoteStream

/-- What can happen to the stream between two readings of it. -/
inductive StreamEvent where
  | setSymbols (names : List String)
  | setTradeSink (sink : Bool)
  | setTradeSymbols (names : List String)
  | frame (frame : PushedFrame)
  | forget
  | status (status : StreamStatus)

namespace QuoteStream
variable (zone : Zone) (read : String → Option Number)

def event (stream : QuoteStream) : StreamEvent → QuoteStream
  | .setSymbols names => stream.setSymbols names
  | .setTradeSink sink => stream.setTradeSink sink
  | .setTradeSymbols names => stream.setTradeSymbols names
  | .frame frame => (stream.record zone read frame).stream
  | .forget => stream.forget
  | .status status => { stream with status := status }

def run (stream : QuoteStream) (events : List StreamEvent) : QuoteStream :=
  events.foldl (event zone read) stream

end QuoteStream

/-! What a pushed NBBO is read from.

`received` are the quotes a stretch of events brings a name, and a stretch is uncut while
no connection starts in it and the name neither enters nor leaves the followed set. The
stored quote is the latest received since the last cut.
-/

namespace QuoteStream
variable (zone : Zone) (read : String → Option Number)

/-- The quotes a frame's items come to, up to the first that raises. -/
def accepted (stream : QuoteStream) (received : ℚ) : List Value → List (String × Quote)
  | [] => []
  | item :: rest =>
      match stream.itemOf zone read received item with
      | .error _ => []
      | .ok (quote, _) => quote.toList ++ accepted stream received rest

def ofName (symbol : String) (found : List (String × Quote)) : List Quote :=
  found.filterMap fun entry => if entry.1 = symbol then some entry.2 else none

def brings (stream : QuoteStream) (symbol : String) : StreamEvent → List Quote
  | .frame frame => match frame.payload with
      | none => []
      | some payload => ofName symbol (stream.accepted zone read frame.received (pushedItems payload))
  | _ => []

def received (symbol : String) : QuoteStream → List StreamEvent → List Quote
  | _, [] => []
  | stream, event :: rest =>
      stream.brings zone read symbol event ++ received symbol (stream.event zone read event) rest

/-- A connection starts, or the name enters or leaves the followed set. -/
def cuts (stream : QuoteStream) (symbol : String) : StreamEvent → Prop
  | .forget => True
  | .setSymbols names => ¬ (symbol ∈ names ↔ symbol ∈ stream.symbols)
  | _ => False

def Uncut (symbol : String) : QuoteStream → List StreamEvent → Prop
  | _, [] => True
  | stream, event :: rest => ¬ stream.cuts symbol event ∧ Uncut symbol (stream.event zone read event) rest

variable {zone read} {stream : QuoteStream} {symbol : String}

theorem run_snoc (stream : QuoteStream) (events : List StreamEvent) (event : StreamEvent) :
    stream.run zone read (events ++ [event]) = (stream.run zone read events).event zone read event := by
  unfold run
  rw [List.foldl_append]
  rfl

theorem received_snoc (events : List StreamEvent) (event : StreamEvent) (stream : QuoteStream) :
    received zone read symbol stream (events ++ [event]) =
      received zone read symbol stream events ++ (stream.run zone read events).brings zone read symbol event := by
  induction events generalizing stream with
  | nil => simp [received, run]
  | cons first rest ih =>
    rw [List.cons_append, received, received, ih, List.append_assoc]
    rfl

theorem uncut_snoc {events : List StreamEvent} {event : StreamEvent} {stream : QuoteStream}
    (uncut : Uncut zone read symbol stream events) (kept : ¬ (stream.run zone read events).cuts symbol event) :
    Uncut zone read symbol stream (events ++ [event]) := by
  induction events generalizing stream with
  | nil => exact ⟨kept, trivial⟩
  | cons first rest ih => exact ⟨uncut.1, ih uncut.2 kept⟩

section Frames

theorem keep_get? {quotes : Dict String Quote} {window : List Quote}
    (held : quotes.get? symbol = latest Quote.quotedAt window.reverse) (name : String) (quote : Quote) :
    (keep quotes name quote).get? symbol =
      latest Quote.quotedAt (window ++ ofName symbol [(name, quote)]).reverse := by
  by_cases same : name = symbol
  · subst same
    have own : ofName name [(name, quote)] = [quote] := by simp [ofName]
    rw [own, List.reverse_append, List.reverse_singleton, List.singleton_append, latest, ← held]
    unfold keep
    cases before : quotes.get? name with
    | none => simp
    | some stored =>
      simp only
      split
      · exact before
      · simp
  · have other : ofName symbol [(name, quote)] = [] := by simp [ofName, same]
    rw [other, List.append_nil, ← held]
    have apart : symbol ≠ name := fun equal => same equal.symm
    unfold keep
    split
    · simp [apart]
    · split
      · rfl
      · simp [apart]

theorem ofName_append (front back : List (String × Quote)) :
    ofName symbol (front ++ back) = ofName symbol front ++ ofName symbol back := List.filterMap_append ..

theorem accepted_congr {other : QuoteStream} (spelled : other.spelled = stream.spelled)
    (tradeSpelled : other.tradeSpelled = stream.tradeSpelled) (moment : ℚ) (items : List Value) :
    other.accepted zone read moment items = stream.accepted zone read moment items := by
  induction items with
  | nil => rfl
  | cons item rest ih =>
    have same : other.itemOf zone read moment item = stream.itemOf zone read moment item := by
      unfold itemOf tradeOf quoteOf
      rw [spelled, tradeSpelled]
    unfold accepted
    rw [same, ih]

theorem recordItems_stream (moment : ℚ) (items : List Value) (stream : QuoteStream) (trades : List Arrival) :
    (recordItems zone read moment items stream trades).stream = { stream with
      quotes := (stream.accepted zone read moment items).foldl
        (fun quotes found => keep quotes found.1 found.2) stream.quotes } := by
  induction items generalizing stream trades with
  | nil => rfl
  | cons item rest ih =>
    unfold recordItems accepted
    cases parsed : stream.itemOf zone read moment item with
    | error raised => rfl
    | ok found =>
      obtain ⟨quote, trade⟩ := found
      simp only
      have same : ∀ quotes, accepted zone read { stream with quotes := quotes } moment rest =
          stream.accepted zone read moment rest := by
        intro quotes
        apply accepted_congr
        · rfl
        · rfl
      rw [ih, same]
      cases quote with
      | none => rfl
      | some found => rfl

theorem foldl_keep_get? (found : List (String × Quote)) {quotes : Dict String Quote} {window : List Quote}
    (held : quotes.get? symbol = latest Quote.quotedAt window.reverse) :
    (found.foldl (fun quotes found => keep quotes found.1 found.2) quotes).get? symbol =
      latest Quote.quotedAt (window ++ ofName symbol found).reverse := by
  induction found generalizing quotes window with
  | nil => simpa [ofName] using held
  | cons entry rest ih =>
    have next := ih (keep_get? held entry.1 entry.2)
    rw [List.append_assoc, ← ofName_append] at next
    exact next

end Frames

theorem foldl_erase_get? (names : List String) (quotes : Dict String Quote) :
    (names.foldl Dict.erase quotes).get? symbol = if symbol ∈ names then none else quotes.get? symbol := by
  induction names generalizing quotes with
  | nil => simp
  | cons name rest ih =>
    rw [List.foldl_cons, ih, Dict.get?_erase]
    by_cases here : symbol = name
    · simp [here]
    · simp [here]

theorem event_get? {window : List Quote} (held : stream.quotes.get? symbol = latest Quote.quotedAt window.reverse)
    {event : StreamEvent} (kept : ¬ stream.cuts symbol event) :
    (stream.event zone read event).quotes.get? symbol =
      latest Quote.quotedAt (window ++ stream.brings zone read symbol event).reverse := by
  cases event with
  | setSymbols names =>
    have steady : symbol ∈ names ↔ symbol ∈ stream.symbols := not_not.mp kept
    have unmoved : symbol ∉ names.filter (· ∉ stream.symbols) ++ stream.symbols.filter (· ∉ names) := by
      simp [List.mem_filter, steady]
    simp only [event, setSymbols, foldl_erase_get?, unmoved, if_false, brings, List.append_nil]
    exact held
  | frame frame =>
    obtain ⟨payload, moment, heard⟩ := frame
    cases payload with
    | none => simpa [event, record, brings] using held
    | some payload =>
      have same : accepted zone read { stream with lastMessage := heard } moment (pushedItems payload) =
          stream.accepted zone read moment (pushedItems payload) := by
        apply accepted_congr
        · rfl
        · rfl
      simp only [event, record, brings, recordItems_stream, same]
      exact foldl_keep_get? _ held
  | forget => exact absurd trivial kept
  | setTradeSink sink => simpa [event, setTradeSink, brings] using held
  | setTradeSymbols names => simpa [event, setTradeSymbols, brings] using held
  | status status => simpa [event, brings] using held

theorem event_cut {event : StreamEvent} (cut : stream.cuts symbol event) :
    (stream.event zone read event).quotes.get? symbol = none := by
  cases event with
  | setSymbols names =>
    have moved : symbol ∈ names.filter (· ∉ stream.symbols) ++ stream.symbols.filter (· ∉ names) := by
      have differ : ¬ (symbol ∈ names ↔ symbol ∈ stream.symbols) := cut
      simp only [List.mem_append, List.mem_filter, decide_eq_true_eq]
      tauto
    simp only [event, setSymbols, foldl_erase_get?, moved, if_true]
  | forget => rfl
  | frame frame => exact cut.elim
  | setTradeSink sink => exact cut.elim
  | setTradeSymbols names => exact cut.elim
  | status status => exact cut.elim

/-- The followed names: every spelling is one's, and every stored quote is one's. -/
structure Follows (stream : QuoteStream) : Prop where
  spelled : ∀ spelling name, stream.spelled.get? spelling = some name → name ∈ stream.symbols
  quoted : ∀ name quote, stream.quotes.get? name = some quote → name ∈ stream.symbols

theorem spellings_follow (names : List String) {spelling name : String}
    (found : (spellings names).get? spelling = some name) : name ∈ names := by
  have kept : ∀ spelling name, (spellings names).get? spelling = some name → name ∈ names := by
    unfold spellings
    refine foldl_keeps (fun table : Dict String String =>
      ∀ spelling name, table.get? spelling = some name → name ∈ names) names ?_ (fun _ _ never => nomatch never)
    intro next member table kept spelling name found
    rw [Dict.get?_insert] at found
    split at found
    · cases found
      exact member
    · exact kept spelling name found
  exact kept spelling name found

theorem quoteOf_spelled {item : Value} {moment : ℚ} {found : String × Quote}
    (parsed : stream.quoteOf read item moment = .ok (some found)) :
    ∃ spelling, (item.field "sym").text? = some spelling ∧ stream.spelled.get? spelling = some found.1 := by
  unfold quoteOf at parsed
  split at parsed
  · cases parsed
  · rename_i symbol named
    have own : symbol = found.1 := by
      split at parsed
      · cases parsed
      · cases parsed
      · split at parsed
        · cases parsed
          rfl
        · cases parsed
      · cases parsed
    split at named
    · obtain ⟨spelling, isText, listed⟩ := Option.bind_eq_some_iff.mp named
      exact ⟨spelling, isText, own ▸ listed⟩
    · cases named

theorem accepted_follows (follows : stream.Follows) {moment : ℚ} {items : List Value} {found : String × Quote}
    (member : found ∈ stream.accepted zone read moment items) : found.1 ∈ stream.symbols := by
  induction items with
  | nil => cases member
  | cons item rest ih =>
    unfold accepted at member
    split at member
    · cases member
    · rename_i quote trade parsed
      rcases List.mem_append.mp member with own | later
      · have isQuote : quote = some found := by simpa using own
        unfold itemOf at parsed
        split at parsed
        · cases traded : stream.tradeOf zone read item moment with
          | error raised => simp [traded, Except.map] at parsed
          | ok trade =>
            simp only [traded, Except.map, Except.ok.injEq, Prod.mk.injEq] at parsed
            rw [isQuote] at parsed
            cases parsed.1
        · cases quoted : stream.quoteOf read item moment with
          | error raised => simp [quoted, Except.map] at parsed
          | ok result =>
            simp only [quoted, Except.map, Except.ok.injEq, Prod.mk.injEq] at parsed
            rw [parsed.1, isQuote] at quoted
            obtain ⟨spelling, _, listed⟩ := quoteOf_spelled quoted
            exact follows.spelled spelling _ listed
      · exact ih later

theorem keep_follows {names : List String} {quotes : Dict String Quote}
    (quoted : ∀ name quote, quotes.get? name = some quote → name ∈ names) {found : String × Quote}
    (member : found.1 ∈ names) :
    ∀ name quote, (keep quotes found.1 found.2).get? name = some quote → name ∈ names := by
  have inserted : ∀ name quote, (quotes.insert found.1 found.2).get? name = some quote → name ∈ names := by
    intro name quote stored
    rw [Dict.get?_insert] at stored
    split at stored
    · rename_i same
      exact same ▸ member
    · exact quoted name quote stored
  unfold keep
  split
  · exact inserted
  · split
    · exact quoted
    · exact inserted

theorem Follows.event (follows : stream.Follows) (event : StreamEvent) :
    (stream.event zone read event).Follows := by
  cases event with
  | setSymbols names =>
    refine ⟨fun spelling name found => spellings_follow names found, fun name quote stored => ?_⟩
    simp only [QuoteStream.event, setSymbols, foldl_erase_get?] at stored
    split at stored
    · cases stored
    · rename_i unmoved
      have old := follows.quoted name quote stored
      simp only [List.mem_append, List.mem_filter, decide_eq_true_eq, not_or, not_and, not_not] at unmoved
      exact unmoved.2 old
  | setTradeSink sink => exact ⟨follows.spelled, follows.quoted⟩
  | setTradeSymbols names => exact ⟨follows.spelled, follows.quoted⟩
  | forget => exact ⟨follows.spelled, fun _ _ never => by cases never⟩
  | status status => exact ⟨follows.spelled, follows.quoted⟩
  | frame frame =>
    obtain ⟨payload, moment, heard⟩ := frame
    cases payload with
    | none => exact ⟨follows.spelled, follows.quoted⟩
    | some payload =>
      have heardStream : Follows { stream with lastMessage := heard } := ⟨follows.spelled, follows.quoted⟩
      simp only [QuoteStream.event, record, recordItems_stream]
      refine ⟨follows.spelled, ?_⟩
      exact foldl_keeps (fun quotes : Dict String Quote =>
        ∀ name quote, quotes.get? name = some quote → name ∈ stream.symbols) _
        (fun found member quotes quoted => keep_follows quoted (accepted_follows heardStream member))
        follows.quoted

/-- A stored quote has a message since the connection started, the last the stream heard. -/
def Heard (stream : QuoteStream) (events : List StreamEvent) : Prop :=
  ∀ name quote, stream.quotes.get? name = some quote →
    ∃ before frame after, events = before ++ .frame frame :: after ∧ StreamEvent.forget ∉ after ∧
      frame.payload.isSome ∧ frame.heard = stream.lastMessage

theorem Heard.quiet {events : List StreamEvent} (heard : stream.Heard events) {next : QuoteStream}
    {event : StreamEvent} (kept : event ≠ .forget)
    (back : ∀ name quote, next.quotes.get? name = some quote → stream.quotes.get? name = some quote)
    (message : next.lastMessage = stream.lastMessage) : next.Heard (events ++ [event]) := by
  intro name quote found
  obtain ⟨before, frame, after, rfl, clear, payload, moment⟩ := heard name quote (back name quote found)
  refine ⟨before, frame, after ++ [event], by simp, ?_, payload, moment.trans message.symm⟩
  simp [clear, kept.symm]

theorem Heard.event {events : List StreamEvent} (heard : stream.Heard events) (event : StreamEvent) :
    (stream.event zone read event).Heard (events ++ [event]) := by
  cases event with
  | setSymbols names =>
    refine heard.quiet (by simp) (fun name quote found => ?_) rfl
    simp only [QuoteStream.event, setSymbols, foldl_erase_get?] at found
    split at found
    · cases found
    · exact found
  | setTradeSink sink => exact heard.quiet (by simp) (fun _ _ found => found) rfl
  | setTradeSymbols names => exact heard.quiet (by simp) (fun _ _ found => found) rfl
  | status status => exact heard.quiet (by simp) (fun _ _ found => found) rfl
  | forget => exact fun _ _ never => by cases never
  | frame frame =>
    obtain ⟨payload, moment, heardAt⟩ := frame
    cases payload with
    | none => exact heard.quiet (by simp) (fun _ _ found => found) rfl
    | some payload =>
      intro name quote _
      refine ⟨events, ⟨some payload, moment, heardAt⟩, [], rfl, by simp, rfl, ?_⟩
      simp only [QuoteStream.event, record, recordItems_stream]

/-- What stands of a name after some events: the last cut, and the latest it was brought since. -/
structure Standing (zone : Zone) (read : String → Option Number) (symbol : String) (events : List StreamEvent) :
    Prop where
  split : ∃ before after, events = before ++ after ∧
    (before = [] ∨ ∃ front cut, before = front ++ [cut] ∧ (run zone read {} front).cuts symbol cut) ∧
    Uncut zone read symbol (run zone read {} before) after ∧
    (run zone read {} events).quotes.get? symbol =
      latest Quote.quotedAt (received zone read symbol (run zone read {} before) after).reverse
  follows : (run zone read {} events).Follows
  heard : (run zone read {} events).Heard events

theorem standing (zone : Zone) (read : String → Option Number) (symbol : String) (events : List StreamEvent) :
    Standing zone read symbol events := by
  induction events using List.reverseRecOn with
  | nil =>
    refine ⟨⟨[], [], rfl, .inl rfl, trivial, rfl⟩, ⟨?_, ?_⟩, ?_⟩
    · exact fun _ _ never => nomatch never
    · exact fun _ _ never => nomatch never
    · exact fun _ _ never => nomatch never
  | append_singleton events event ih =>
    obtain ⟨⟨before, after, same, opened, uncut, stored⟩, follows, heard⟩ := ih
    refine ⟨?_, ?_, ?_⟩
    · by_cases cut : (run zone read {} events).cuts symbol event
      · refine ⟨events ++ [event], [], (List.append_nil _).symm, .inr ⟨events, event, rfl, cut⟩, trivial, ?_⟩
        rw [run_snoc]
        exact event_cut cut
      · have ran : (run zone read {} before).run zone read after = run zone read {} events := by
          rw [same]
          unfold run
          rw [List.foldl_append]
        refine ⟨before, after ++ [event], by rw [same, List.append_assoc], opened, ?_, ?_⟩
        · exact uncut_snoc uncut (ran.symm ▸ cut)
        · rw [run_snoc, received_snoc, ran]
          exact event_get? stored cut
    · rw [run_snoc]
      exact follows.event event
    · rw [run_snoc]
      exact heard.event event

end QuoteStream

/-- Of some quotes in the order received, the greatest stamp, and the last of the equal ones. -/
def Newest (quote : Quote) (quotes : List Quote) : Prop :=
  ∃ front back, quotes = front ++ quote :: back ∧ (∀ other ∈ front, other.quotedAt ≤ quote.quotedAt) ∧
    ∀ other ∈ back, other.quotedAt < quote.quotedAt

/-- A quote served is of a followed name, on a connected socket that delivered a message in time since
its connection started, and is the newest of those received for the name since that start and since the
name entered the followed set. -/
theorem pushed_quote (zone : Zone) (read : String → Option Number) (events : List StreamEvent)
    (symbol : String) (clock : ℚ) :
    let stream := QuoteStream.run zone read {} events
    ∀ quote, stream.quote symbol clock = some quote →
      stream.status = .connected ∧ symbol ∈ stream.symbols ∧
      (∃ before frame after, events = before ++ .frame frame :: after ∧ StreamEvent.forget ∉ after ∧
        frame.payload.isSome ∧ clock - frame.heard ≤ streamAlive) ∧
      ∃ before after, events = before ++ after ∧
        (before = [] ∨ ∃ front cut, before = front ++ [cut] ∧
          (QuoteStream.run zone read {} front).cuts symbol cut) ∧
        QuoteStream.Uncut zone read symbol (QuoteStream.run zone read {} before) after ∧
        Newest quote (QuoteStream.received zone read symbol (QuoteStream.run zone read {} before) after) := by
  intro stream quote served
  obtain ⟨⟨before, after, same, opened, uncut, stored⟩, follows, heard⟩ :=
    QuoteStream.standing zone read symbol events
  unfold QuoteStream.quote at served
  split at served
  · cases served
  · rename_i live
    rw [not_or, not_not, not_lt] at live
    obtain ⟨connected, alive⟩ := live
    obtain ⟨early, frame, late, split, clear, payload, moment⟩ := heard symbol quote served
    rw [show stream.lastMessage = frame.heard from moment.symm] at alive
    refine ⟨connected, follows.quoted symbol quote served, ⟨early, frame, late, split, clear, payload, alive⟩,
      before, after, same, opened, uncut, ?_⟩
    exact latest_reverse_split (stored.symm.trans served)

section Example

def pushedItem (sym : String) (bid ask stamp : ℚ) : Value :=
  .object [("ev", .text "Q"), ("sym", .text sym), ("bp", .float (.finite bid)), ("ap", .float (.finite ask)),
    ("t", .float (.finite stamp))]

/-- A connection that brings BRK-B a quote, an older one, and one too far ahead. -/
def pushedRun : List StreamEvent :=
  [.setSymbols ["AAA", "BRK-B"], .forget, .status .connected,
    .frame ⟨some (.list [pushedItem "BRK.B" 500 501 2000, pushedItem "BRK.B" 490 491 1000,
      pushedItem "BRK.B" 400 401 9000]), 3000, 7⟩]

theorem pushed_quote_served :
    (QuoteStream.run eastern (fun _ => none) {} pushedRun).quote "BRK-B" 8 = some ⟨500, 501, 2000000⟩ ∧
      ∃ before after, pushedRun = before ++ after ∧ Newest ⟨500, 501, 2000000⟩
        (QuoteStream.received eastern (fun _ => none) "BRK-B"
          (QuoteStream.run eastern (fun _ => none) {} before) after) := by
  have served : (QuoteStream.run eastern (fun _ => none) {} pushedRun).quote "BRK-B" 8 =
      some ⟨500, 501, 2000000⟩ := by decide +kernel
  obtain ⟨_, _, _, before, after, same, _, _, newest⟩ :=
    pushed_quote eastern (fun _ => none) pushedRun "BRK-B" 8 _ served
  exact ⟨served, before, after, same, newest⟩

end Example
end C3po.Live
