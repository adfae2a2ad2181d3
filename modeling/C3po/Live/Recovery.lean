import C3po.Live.Stream

/-! A recovered opening counts every trade once.

Before the cut a tape has the minute bars, which add up the trades of their minutes;
from the cut on it has the trades the feed delivers, in whatever order they come.
-/

set_option autoImplicit false

namespace C3po.Live
open C3po.Library

def counted (trades : List Trade) : List Trade := trades.filter fun trade => 0 < trade.size

def volumeOf (trades : List Trade) : ℚ := ((counted trades).map Trade.size).sum

def pvOf (trades : List Trade) : ℚ := ((counted trades).map fun trade => trade.price * trade.size).sum

section Totals
variable {first second : List Trade} {trade : Trade}

theorem volumeOf_append : volumeOf (first ++ second) = volumeOf first + volumeOf second := by
  unfold volumeOf counted
  rw [List.filter_append, List.map_append, List.sum_append]

theorem pvOf_append : pvOf (first ++ second) = pvOf first + pvOf second := by
  unfold pvOf counted
  rw [List.filter_append, List.map_append, List.sum_append]

theorem volumeOf_perm (same : first.Perm second) : volumeOf first = volumeOf second :=
  ((same.filter _).map _).sum_eq

theorem pvOf_perm (same : first.Perm second) : pvOf first = pvOf second :=
  ((same.filter _).map _).sum_eq

theorem volumeOf_singleton : volumeOf [trade] = if 0 < trade.size then trade.size else 0 := by
  unfold volumeOf counted
  split <;> rename_i size <;> simp [size]

theorem pvOf_singleton : pvOf [trade] = if 0 < trade.size then trade.price * trade.size else 0 := by
  unfold pvOf counted
  split <;> rename_i size <;> simp [size]

end Totals

section Tapes
variable {tape : Tape} {trade : Trade} {price size stamp : ℚ} {minute bound : Int}

theorem record_volume : (tape.record trade).volume = tape.volume + volumeOf [trade] := by
  rw [Tape.record_eq, Tape.openWith_eq, volumeOf_singleton]
  unfold Tape.moveTrade Tape.move Tape.inOrder Tape.lateCompleted Tape.closeLate Tape.countClosed Tape.count
    Tape.advance Tape.close
  split_ifs <;> simp

theorem record_pv : (tape.record trade).pv = tape.pv + pvOf [trade] := by
  rw [Tape.record_eq, Tape.openWith_eq, pvOf_singleton]
  unfold Tape.moveTrade Tape.move Tape.inOrder Tape.lateCompleted Tape.closeLate Tape.countClosed Tape.count
    Tape.advance Tape.close
  split_ifs <;> simp

theorem record_lastAt : (tape.record trade).lastAt = if tape.late trade.stamp then tape.lastAt else some trade.stamp := by
  rw [Tape.record_eq, Tape.moveTrade_lastAt, Tape.openWith_eq]
  rfl

theorem record_lastPrice :
    (tape.record trade).lastPrice = if tape.late trade.stamp then tape.lastPrice else some trade.price := by
  rw [Tape.record_eq, Tape.openWith_eq]
  unfold Tape.moveTrade Tape.move Tape.inOrder Tape.lateCompleted Tape.closeLate Tape.countClosed Tape.count
    Tape.advance Tape.close Tape.late
  split_ifs <;> simp_all

theorem record_minute (below : tape.minute ≤ bound) (same : trade.minute ≤ bound) :
    (tape.record trade).minute ≤ bound := by
  rw [Tape.record_eq, Tape.moveTrade_minute, Tape.openWith_minute]
  split
  · exact below
  · exact max_le below same

theorem record_opening : (tape.record trade).opening.isSome := by
  rw [Tape.record_eq, Tape.moveTrade_opening]
  unfold Tape.openWith
  split
  · rfl
  · rename_i opening openingAt known openedAt
    split
    · rfl
    · rw [known]
      rfl
  · rename_i opening known openedAt
    rw [known]
    rfl

end Tapes

section Played
variable {start : Option Tape} {trades : List Trade} {trade : Trade} {bound : Int}

theorem played_append (start : Option Tape) (trades : List Trade) (trade : Trade) :
    played start (trades ++ [trade]) = some (((played start trades).getD {}).record trade) := by
  unfold played
  rw [List.foldl_append]
  rfl

theorem played_totals (start : Option Tape) (trades : List Trade) :
    ((played start trades).getD {}).volume = (start.getD {}).volume + volumeOf trades ∧
      ((played start trades).getD {}).pv = (start.getD {}).pv + pvOf trades := by
  induction trades using List.reverseRecOn with
  | nil => simp [played, volumeOf, pvOf, counted]
  | append_singleton trades trade ih =>
    rw [played_append, volumeOf_append, pvOf_append, ← add_assoc, ← add_assoc, ← ih.1, ← ih.2]
    exact ⟨record_volume, record_pv⟩

theorem played_minute (below : (start.getD {}).minute ≤ bound) (same : ∀ trade ∈ trades, trade.minute ≤ bound) :
    ((played start trades).getD {}).minute ≤ bound := by
  induction trades using List.reverseRecOn with
  | nil => exact below
  | append_singleton trades trade ih =>
    rw [played_append]
    exact record_minute (ih fun other member => same other (List.mem_append_left _ member))
      (same trade (List.mem_append_right _ (List.mem_singleton_self trade)))

theorem played_last (after : ∀ last ∈ (start.getD {}).lastAt, ∀ trade ∈ trades, last ≤ trade.stamp) {best : Trade}
    (isLatest : latest Trade.stamp trades.reverse = some best) :
    ((played start trades).getD {}).lastPrice = some best.price ∧
      ((played start trades).getD {}).lastAt = some best.stamp := by
  induction trades using List.reverseRecOn generalizing best with
  | nil => cases isLatest
  | append_singleton trades trade ih =>
    have earlier : ∀ last ∈ (start.getD {}).lastAt, ∀ trade ∈ trades, last ≤ trade.stamp :=
      fun last lastIs other member => after last lastIs other (List.mem_append_left _ member)
    rw [List.reverse_append] at isLatest
    change latest Trade.stamp (trade :: trades.reverse) = some best at isLatest
    rw [played_append]
    change (Tape.record _ trade).lastPrice = _ ∧ (Tape.record _ trade).lastAt = _
    rw [record_lastPrice, record_lastAt]
    cases found : latest Trade.stamp trades.reverse with
    | none =>
      have nothing : trades = [] := List.reverse_eq_nil_iff.mp (latest_none.mp found)
      subst nothing
      simp only [latest, List.reverse_nil, Option.some.injEq] at isLatest
      have onTime : (start.getD {}).late trade.stamp = false := by
        unfold Tape.late
        split
        · rfl
        · rename_i last known
          have order := after last known trade (by simp)
          exact decide_eq_false (not_lt.mpr order)
      change (if (start.getD {}).late trade.stamp = true then _ else _) = _ ∧
        (if (start.getD {}).late trade.stamp = true then _ else _) = _
      rw [onTime, isLatest]
      exact ⟨rfl, rfl⟩
    | some previous =>
      obtain ⟨price, stamp⟩ := ih earlier found
      simp only [latest, found] at isLatest
      have late : ((played start trades).getD {}).late trade.stamp = decide (trade.stamp < previous.stamp) := by
        unfold Tape.late
        rw [stamp]
      rw [late]
      by_cases before : trade.stamp < previous.stamp
      · rw [if_pos before] at isLatest
        cases isLatest
        simp [before, price, stamp]
      · rw [if_neg before] at isLatest
        cases isLatest
        simp [before]

end Played

def Arrival.minuteStart (arrival : Arrival) : Int := arrival.instant / 60000000 * 60000

def inMinute (zone : Zone) (trades : List Arrival) (start : Int) : List Trade :=
  (trades.filter fun trade => trade.minuteStart = start).map (Arrival.trade zone)

/-- The service's bars of a day: whole minutes, each once, and before the cut each with the exact sums of
its minute's trades. -/
structure ExactBars (zone : Zone) (day cut : Int) (bars : List Bar) (trades : List Arrival) : Prop where
  day : ∀ bar ∈ bars, zone.date (bar.t * 1000) = day
  whole : ∀ bar ∈ bars, bar.t % 60000 = 0
  once : (bars.map Bar.t).Nodup
  cover : ∀ trade ∈ trades, 0 < trade.size → trade.minuteStart ∈ bars.map Bar.t
  volume : ∀ bar ∈ bars, bar.t * 1000 < cut → bar.volume = volumeOf (inMinute zone trades bar.t)
  vwap : ∀ bar ∈ bars, bar.t * 1000 < cut → bar.average * bar.volume = pvOf (inMinute zone trades bar.t)

/-- The local time of a day counts from its midnight, and on a session's day it goes forward. -/
structure Zone.Forward (zone : Zone) (day : Int) : Prop where
  fromMidnight : ∀ instant, 0 ≤ zone.time instant
  forward : ∀ first second, zone.date first = day → zone.date second = day → first ≤ second →
    zone.time first ≤ zone.time second

section Bars
variable {zone : Zone} {day cut now : Int} {bars : List Bar} {bar : Bar} {tape next : Tape}

def Bar.prints (zone : Zone) (bar : Bar) : List Trade :=
  [⟨bar.opening, 0, zone.minute (bar.t * 1000), bar.stamp⟩,
    ⟨bar.average, bar.volume, zone.minute (bar.t * 1000), bar.stamp + 1 / 1000⟩,
    ⟨bar.close, 0, zone.minute (bar.t * 1000), bar.stamp + 2 / 1000⟩]

def printsBefore (zone : Zone) (cut : Int) (bars : List Bar) : List Trade :=
  (bars.filter fun bar => bar.t ≤ lastBefore cut).flatMap (Bar.prints zone)

theorem addBar_ok {last : Int} (added : addBar zone last tape bar = .ok next) :
    (bar.t ≤ last → 0 ≤ bar.volume) ∧
      next = (if bar.t ≤ last then bar.prints zone else []).foldl Tape.record tape := by
  unfold addBar at added
  split at added
  · rename_i after
    cases added
    refine ⟨fun before => absurd before (not_le.mpr after), ?_⟩
    rw [if_neg (not_le.mpr after)]
    rfl
  · rename_i before
    split at added
    · cases added
    · rename_i numbers
      cases added
      rw [not_or, not_lt] at numbers
      refine ⟨fun _ => numbers.2, ?_⟩
      rw [if_pos (not_lt.mp before)]
      rfl

theorem addBars_ok {last : Int} (added : bars.foldlM (addBar zone last) tape = .ok next) :
    (∀ bar ∈ bars, bar.t ≤ last → 0 ≤ bar.volume) ∧
      next = ((bars.filter fun bar => bar.t ≤ last).flatMap (Bar.prints zone)).foldl Tape.record tape := by
  induction bars generalizing tape with
  | nil =>
    cases added
    refine ⟨fun bar never => ?_, rfl⟩
    cases never
  | cons bar rest ih =>
    obtain ⟨middle, first, others⟩ := foldlM_cons_ok added
    obtain ⟨sized, middleIs⟩ := addBar_ok first
    obtain ⟨restSized, nextIs⟩ := ih others
    refine ⟨fun other member => ?_, ?_⟩
    · rcases List.mem_cons.mp member with rfl | later
      · exact sized
      · exact restSized other later
    · rw [nextIs, middleIs]
      by_cases before : bar.t ≤ last
      · rw [if_pos before, List.filter_cons_of_pos (by simpa using before), List.flatMap_cons, List.foldl_append]
      · rw [if_neg before, List.filter_cons_of_neg (by simpa using before)]
        rfl

theorem played_some (tape : Tape) (trades : List Trade) :
    played (some tape) trades = some (trades.foldl Tape.record tape) := by
  induction trades generalizing tape with
  | nil => rfl
  | cons trade rest ih => exact ih (tape.record trade)

theorem massiveMinuteTape_ok {built : Option Tape} (rebuilt : massiveMinuteTape zone cut bars = .ok built) :
    (∀ bar ∈ bars, bar.t ≤ lastBefore cut → 0 ≤ bar.volume) ∧
      built = played none (printsBefore zone cut bars) := by
  obtain ⟨tape, added, isBuilt⟩ := bind_ok rebuilt
  obtain ⟨sized, tapeIs⟩ := addBars_ok added
  refine ⟨sized, ?_⟩
  cases isBuilt
  change tape = (printsBefore zone cut bars).foldl Tape.record {} at tapeIs
  rw [tapeIs]
  cases prints : printsBefore zone cut bars with
  | nil => rfl
  | cons print rest =>
    change _ = played (some (Tape.record {} print)) rest
    rw [played_some, List.foldl_cons]
    refine if_pos ?_
    refine foldl_keeps (fun tape : Tape => tape.opening.isSome) rest (fun trade _ tape _ => record_opening) ?_
    exact record_opening

theorem prints_volume (sized : 0 ≤ bar.volume) : volumeOf (bar.prints zone) = bar.volume := by
  unfold volumeOf counted Bar.prints
  by_cases positive : 0 < bar.volume
  · simp [positive]
  · have zero : bar.volume = 0 := le_antisymm (not_lt.mp positive) sized
    simp [zero]

theorem prints_pv (sized : 0 ≤ bar.volume) : pvOf (bar.prints zone) = bar.average * bar.volume := by
  unfold pvOf counted Bar.prints
  by_cases positive : 0 < bar.volume
  · simp [positive]
  · have zero : bar.volume = 0 := le_antisymm (not_lt.mp positive) sized
    simp [zero]

theorem prints_totals {chosen : List Bar} (sized : ∀ bar ∈ chosen, 0 ≤ bar.volume) :
    volumeOf (chosen.flatMap (Bar.prints zone)) = (chosen.map Bar.volume).sum ∧
      pvOf (chosen.flatMap (Bar.prints zone)) = (chosen.map fun bar => bar.average * bar.volume).sum := by
  induction chosen with
  | nil => simp [volumeOf, pvOf, counted]
  | cons bar rest ih =>
    obtain ⟨volume, pv⟩ := ih fun other member => sized other (List.mem_cons_of_mem _ member)
    have own := sized bar List.mem_cons_self
    rw [List.flatMap_cons, volumeOf_append, pvOf_append, volume, pv, prints_volume own, prints_pv own,
      List.map_cons, List.sum_cons, List.map_cons, List.sum_cons]
    exact ⟨rfl, rfl⟩

theorem before_cut (wholeCut : cut % 60000000 = 0) (whole : bar.t % 60000 = 0) :
    bar.t ≤ lastBefore cut ↔ bar.t * 1000 < cut := by
  unfold lastBefore
  omega

theorem ExactBars.totals {trades : List Arrival} (exact : ExactBars zone day cut bars trades)
    (wholeCut : cut % 60000000 = 0) (before : ∀ trade ∈ trades, trade.instant < cut)
    (sized : ∀ bar ∈ bars, bar.t ≤ lastBefore cut → 0 ≤ bar.volume) :
    volumeOf (printsBefore zone cut bars) = volumeOf (trades.map (Arrival.trade zone)) ∧
      pvOf (printsBefore zone cut bars) = pvOf (trades.map (Arrival.trade zone)) := by
  have chosen : ∀ bar ∈ bars.filter fun bar => bar.t ≤ lastBefore cut, bar ∈ bars ∧ bar.t * 1000 < cut := by
    intro bar member
    obtain ⟨barIn, early⟩ := List.mem_filter.mp member
    exact ⟨barIn, (before_cut wholeCut (exact.whole bar barIn)).mp (of_decide_eq_true early)⟩
  obtain ⟨volume, pv⟩ := @prints_totals zone (bars.filter fun bar => bar.t ≤ lastBefore cut) fun bar member =>
    sized bar (List.mem_filter.mp member).1 (of_decide_eq_true (List.mem_filter.mp member).2)
  have nodup : ((bars.filter fun bar => bar.t ≤ lastBefore cut).map Bar.t).Nodup :=
    exact.once.sublist ((List.filter_sublist).map _)
  have cover : ∀ trade ∈ trades.filter fun trade => 0 < trade.size,
      trade.minuteStart ∈ (bars.filter fun bar => bar.t ≤ lastBefore cut).map Bar.t := by
    intro trade member
    obtain ⟨tradeIn, size⟩ := List.mem_filter.mp member
    obtain ⟨bar, barIn, start⟩ := List.mem_map.mp (exact.cover trade tradeIn (of_decide_eq_true size))
    refine List.mem_map.mpr ⟨bar, List.mem_filter.mpr ⟨barIn, decide_eq_true ?_⟩, start⟩
    have early := before trade tradeIn
    rw [start]
    unfold Arrival.minuteStart lastBefore
    omega
  have split : ∀ share : Trade → ℚ, ((counted (trades.map (Arrival.trade zone))).map share).sum =
      ((bars.filter fun bar => bar.t ≤ lastBefore cut).map fun bar =>
        ((counted (inMinute zone trades bar.t)).map share).sum).sum := by
    intro share
    have byMinute := Dict.sum_by_name Arrival.minuteStart (fun trade => share (trade.trade zone)) nodup cover
    unfold counted inMinute
    simp only [List.filter_map, List.map_map, List.filter_filter] at byMinute ⊢
    refine byMinute.trans (congrArg List.sum (List.map_congr_left fun bar _ => ?_))
    simp only [Function.comp_def, Bool.and_comm, Arrival.trade]
    rfl
  unfold printsBefore
  rw [volume, pv]
  constructor
  · refine Eq.trans ?_ (split Trade.size).symm
    exact congrArg List.sum (List.map_congr_left fun bar member =>
      exact.volume bar (chosen bar member).1 (chosen bar member).2)
  · refine Eq.trans ?_ (split fun trade => trade.price * trade.size).symm
    exact congrArg List.sum (List.map_congr_left fun bar member =>
      exact.vwap bar (chosen bar member).1 (chosen bar member).2)

theorem ExactBars.prints_before {trades : List Arrival} (exact : ExactBars zone day cut bars trades)
    (wholeCut : cut % 60000000 = 0) {print : Trade} (member : print ∈ printsBefore zone cut bars) :
    print.stamp < timestamp cut ∧
      (cut ≤ now → zone.date now = day → zone.Forward day → print.minute ≤ zone.minute now) := by
  obtain ⟨bar, chosen, printIn⟩ := List.mem_flatMap.mp member
  obtain ⟨barIn, early⟩ := List.mem_filter.mp chosen
  have started := of_decide_eq_true early
  have whole := exact.whole bar barIn
  have minuteBefore : bar.t * 1000 + 60000000 ≤ cut := by
    unfold lastBefore at started
    omega
  have stampBefore : bar.stamp + 60 ≤ timestamp cut := by
    have cast : ((bar.t * 1000 + 60000000 : Int) : ℚ) ≤ (cut : ℚ) := Int.cast_le.mpr minuteBefore
    push_cast at cast
    unfold Bar.stamp timestamp
    linarith
  have minute : print.minute = zone.minute (bar.t * 1000) ∧ print.stamp < timestamp cut := by
    simp only [Bar.prints, List.mem_cons, List.not_mem_nil, or_false] at printIn
    rcases printIn with rfl | rfl | rfl
    · exact ⟨rfl, by linarith⟩
    · exact ⟨rfl, by linarith⟩
    · exact ⟨rfl, by linarith⟩
  refine ⟨minute.2, fun afterCut sameDay forward => ?_⟩
  have time := forward.forward (bar.t * 1000) now (exact.day bar barIn) sameDay (by omega)
  rw [minute.1]
  unfold Zone.minute
  omega

end Bars

/-- The trades of a symbol that a session delivers from the cut on. -/
def fromCut (zone : Zone) (day cut : Int) (symbol : String) (arrivals : List Arrival) : List Arrival :=
  arrivals.filter fun arrival => arrival.symbol = symbol ∧ zone.date arrival.instant = day ∧
    sessionOpen ≤ zone.time arrival.instant ∧ cut ≤ arrival.instant

theorem taken_fromCut (zone : Zone) (day cut : Int) (symbol : String) (arrivals : List Arrival) :
    taken zone day (some (timestamp cut)) symbol arrivals =
      (fromCut zone day cut symbol arrivals).map (Arrival.trade zone) := by
  unfold taken fromCut
  refine congrArg (List.map _) (List.filter_congr fun arrival _ => ?_)
  have order : timestamp cut ≤ timestamp arrival.instant ↔ cut ≤ arrival.instant := by
    unfold timestamp
    rw [div_le_div_iff_of_pos_right (by norm_num), Int.cast_le]
  unfold Arrival.accepted
  rw [Option.all_some, decide_eq_decide.mpr order, ← Bool.decide_and, ← Bool.decide_and, ← Bool.decide_and,
    decide_eq_decide, and_assoc]

/-- A recovered opening: a name's tape before a whole-minute cut is rebuilt from its bars, the restore comes
when they are settled, and the feed delivers the trades from the cut on, before it or after, in any order. -/
structure Recovered (zone : Zone) (symbol : String) (day cut now : Int) (context : Dict String Tape)
    (bars : List Bar) (trades held direct : List Arrival) : Prop where
  wholeCut : cut % 60000000 = 0
  settled : cut ≤ now
  sameDay : zone.date now = day
  forward : zone.Forward day
  exact : ExactBars zone day cut bars (trades.filter fun trade => trade.instant < cut)
  rebuilt : massiveMinuteTape zone cut bars = .ok (context.get? symbol)
  delivered : (fromCut zone day cut symbol (held ++ direct)).Perm
    (trades.filter fun trade => cut ≤ trade.instant)

theorem liveSignal_quiet {stream : Stream} {symbol : String} {minute : Int}
    (restored : stream.restoredMinute = some minute)
    (quiet : ∀ tape, stream.tapes.get? symbol = some tape → tape.minute ≤ minute) :
    stream.liveSignal symbol = none := by
  unfold Stream.liveSignal
  cases found : stream.tapes.get? symbol with
  | none => rfl
  | some tape =>
    have below := quiet tape found
    cases price : tape.lastPrice with
    | none => simp [price]
    | some lastPrice =>
      cases average : tape.vwap with
      | none => simp [price, average]
      | some vwap => simp [price, average, restored, below]

section Recovered
variable {zone : Zone} {symbol : String} {day cut now : Int} {context : Dict String Tape} {bars : List Bar}
  {trades held direct : List Arrival}

theorem Recovered.tape (recovered : Recovered zone symbol day cut now context bars trades held direct) :
    (restarted zone day (some (timestamp cut)) context now held direct).tapes.get? symbol =
      played (played none (printsBefore zone cut bars))
        ((fromCut zone day cut symbol (held ++ direct)).map (Arrival.trade zone)) := by
  rw [restarted_tape, (massiveMinuteTape_ok recovered.rebuilt).2, taken_fromCut]

theorem Recovered.totals (recovered : Recovered zone symbol day cut now context bars trades held direct)
    {tape : Tape} (tapeIs : tape = ((restarted zone day (some (timestamp cut)) context now held direct).tapes.get?
      symbol).getD {}) :
    tape.volume = volumeOf (trades.map (Arrival.trade zone)) ∧ tape.pv = pvOf (trades.map (Arrival.trade zone)) := by
  have sized := (massiveMinuteTape_ok recovered.rebuilt).1
  obtain ⟨barsVolume, barsPv⟩ := recovered.exact.totals recovered.wholeCut
    (fun trade member => of_decide_eq_true (List.mem_filter.mp member).2) sized
  have before := played_totals none (printsBefore zone cut bars)
  have live := played_totals (played none (printsBefore zone cut bars))
    ((fromCut zone day cut symbol (held ++ direct)).map (Arrival.trade zone))
  have whole : (trades.map (Arrival.trade zone)).Perm
      ((trades.filter fun trade => trade.instant < cut).map (Arrival.trade zone) ++
        (fromCut zone day cut symbol (held ++ direct)).map (Arrival.trade zone)) := by
    have parts := (List.filter_append_perm (fun trade : Arrival => decide (trade.instant < cut)) trades).symm
    refine (parts.map (Arrival.trade zone)).trans ?_
    rw [List.map_append]
    refine List.Perm.append_left _ (List.Perm.map _ (List.Perm.trans (.of_eq ?_) recovered.delivered.symm))
    refine List.filter_congr fun trade _ => ?_
    rw [← decide_not, decide_eq_decide, not_lt]
  rw [tapeIs, recovered.tape, live.1, live.2, before.1, before.2, barsVolume, barsPv, volumeOf_perm whole,
    pvOf_perm whole, volumeOf_append, pvOf_append]
  exact ⟨congrArg (· + _) (zero_add _), congrArg (· + _) (zero_add _)⟩

theorem Recovered.last (recovered : Recovered zone symbol day cut now context bars trades held direct)
    {best : Trade} (isLatest : latest Trade.stamp
      ((fromCut zone day cut symbol (held ++ direct)).map (Arrival.trade zone)).reverse = some best) :
    let tape := ((restarted zone day (some (timestamp cut)) context now held direct).tapes.get? symbol).getD {}
    tape.lastPrice = some best.price ∧ tape.lastAt = some best.stamp := by
  rw [recovered.tape]
  refine played_last (fun last lastIs trade member => ?_) isLatest
  obtain ⟨arrival, arrivalIn, rfl⟩ := List.mem_map.mp member
  have after : cut ≤ arrival.instant := (of_decide_eq_true (List.mem_filter.mp arrivalIn).2).2.2.2
  have stamped : timestamp cut ≤ timestamp arrival.instant := by
    unfold timestamp
    rw [div_le_div_iff_of_pos_right (by norm_num), Int.cast_le]
    exact after
  cases found : latest Trade.stamp (printsBefore zone cut bars).reverse with
  | none =>
    rw [List.reverse_eq_nil_iff.mp (latest_none.mp found)] at lastIs
    cases lastIs
  | some print =>
    have ends := (@played_last none _ (fun last never => nomatch never) _ found).2
    rw [ends] at lastIs
    cases lastIs
    have printIn := List.mem_reverse.mp (latest_spec found).1
    exact (@ExactBars.prints_before _ _ _ now _ _ recovered.exact recovered.wholeCut _ printIn).1.le.trans stamped

theorem Recovered.signal (recovered : Recovered zone symbol day cut now context bars trades held direct)
    (signalled : (restarted zone day (some (timestamp cut)) context now held direct).liveSignal symbol ≠ none) :
    ∃ trade ∈ (fromCut zone day cut symbol (held ++ direct)).map (Arrival.trade zone),
      zone.minute now < trade.minute := by
  by_contra never
  refine signalled ?_
  have quiet : ∀ trade ∈ (fromCut zone day cut symbol (held ++ direct)).map (Arrival.trade zone),
      trade.minute ≤ zone.minute now := fun trade member => not_lt.mp fun later => never ⟨trade, member, later⟩
  have barsQuiet : ∀ print ∈ printsBefore zone cut bars, print.minute ≤ zone.minute now := fun print member =>
    (recovered.exact.prints_before recovered.wholeCut member).2 recovered.settled recovered.sameDay recovered.forward
  refine liveSignal_quiet (by rw [restarted_eq]) fun tape tapeIs => ?_
  rw [recovered.tape] at tapeIs
  have midnight : -1 ≤ zone.minute now := by
    have time := recovered.forward.fromMidnight now
    unfold Zone.minute
    omega
  have minute := played_minute (@played_minute Option.none _ _ midnight barsQuiet) quiet
  rw [tapeIs] at minute
  exact minute

end Recovered

/-- A restart plays every trade delivered since it began, once, on the saved tape. A recovered opening counts
every trade once: those before the cut in the bars, those from the cut on as the feed delivers them, held or
not; the last trade is the latest of these, and no signal comes before one of a minute later than the restore's. -/
theorem every_trade_once (zone : Zone) :
    (∀ day floor context now held direct symbol,
      (restarted zone day floor context now held direct).tapes.get? symbol =
        played (context.get? symbol) (taken zone day floor symbol (held ++ direct))) ∧
    ∀ symbol day cut now context bars trades held direct,
      Recovered zone symbol day cut now context bars trades held direct →
      let stream := restarted zone day (some (timestamp cut)) context now held direct
      let tape := (stream.tapes.get? symbol).getD {}
      let live := (fromCut zone day cut symbol (held ++ direct)).map (Arrival.trade zone)
      tape.volume = volumeOf (trades.map (Arrival.trade zone)) ∧
      tape.pv = pvOf (trades.map (Arrival.trade zone)) ∧
      (∀ best, latest Trade.stamp live.reverse = some best →
        tape.lastPrice = some best.price ∧ tape.lastAt = some best.stamp) ∧
      (stream.liveSignal symbol ≠ none → ∃ trade ∈ live, zone.minute now < trade.minute) := by
  refine ⟨fun day floor context now held direct symbol => restarted_tape context now held direct, ?_⟩
  intro symbol day cut now context bars trades held direct recovered stream tape live
  obtain ⟨volume, pv⟩ := recovered.totals rfl
  exact ⟨volume, pv, fun best isLatest => recovered.last isLatest, recovered.signal⟩

section Case

def dayClock : Zone :=
  { date := fun instant => instant / 86400000000, time := fun instant => instant % 86400000000
    instant := fun day time => day * 86400000000 + time }

/-- Two trades in the first minute, one in the second and one after the restore. -/
def fourTrades : List Arrival :=
  [⟨"ASX", 10, 2, 34201000000⟩, ⟨"ASX", 11, 3, 34230000000⟩, ⟨"ASX", 12, 1, 34265000000⟩,
    ⟨"ASX", 13, 1, 34440000000⟩]

def firstMinute : Bar := ⟨34200000, 10, 11, 5, some (53 / 5)⟩

def firstTape : Option Tape := played none (printsBefore dayClock 34260000000 [firstMinute])

theorem fourTrades_recovered (context : Dict String Tape) (installed : context.get? "ASX" = firstTape) :
    Recovered dayClock "ASX" 0 34260000000 34380000000 context [firstMinute] fourTrades
      [⟨"ASX", 12, 1, 34265000000⟩, ⟨"ASX", 11, 3, 34230000000⟩] [⟨"ASX", 13, 1, 34440000000⟩] where
  wholeCut := by decide
  settled := by decide
  sameDay := by decide
  forward := by
    refine ⟨fun instant => Int.emod_nonneg _ (by decide), fun first second firstDay secondDay order => ?_⟩
    simp only [dayClock] at firstDay secondDay ⊢
    omega
  exact := by
    refine ⟨?_, ?_, ?_, ?_, ?_, ?_⟩
    · decide
    · decide
    · decide
    · decide
    · decide +kernel
    · decide +kernel
  rebuilt := by
    rw [installed]
    decide +kernel
  delivered := by decide

/-- The name's tape after the opening was recovered, a trade of the first minute delivered again. -/
theorem every_trade_once_recovered :
    let context := ((Dict.empty : Dict String Tape).insert "ASX" (firstTape.getD {}))
    let stream := restarted dayClock 0 (some (timestamp 34260000000)) context 34380000000
      [⟨"ASX", 12, 1, 34265000000⟩, ⟨"ASX", 11, 3, 34230000000⟩] [⟨"ASX", 13, 1, 34440000000⟩]
    ((stream.tapes.get? "ASX").getD {}).volume = volumeOf (fourTrades.map (Arrival.trade dayClock)) := by
  intro context stream
  have started : firstTape = some (firstTape.getD {}) := by decide +kernel
  have installed : context.get? "ASX" = firstTape := by
    refine (Dict.get?_insert ..).trans ?_
    rw [if_pos rfl, ← started]
  exact ((every_trade_once dayClock).2 _ _ _ _ _ _ _ _ _ (fourTrades_recovered context installed)).1

end Case

end C3po.Live
