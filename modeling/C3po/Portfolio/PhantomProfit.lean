import Mathlib.Algebra.BigOperators.Ring.List
import Mathlib.Data.List.Dedup
import C3po.Portfolio.Grounds

/-! No phantom profit.

At one constant price per symbol and with no fees, a period can only report what
changed hands outside the recorded trades. `periodResult` refuses the periods in
which it sees such a change; the one it does not see is the same-day fix of a
position informed on an earlier day.
-/

set_option autoImplicit false

namespace C3po.Portfolio
open C3po.Library

section
variable (price : String → ℚ)

def valueAt (holdings : Holdings) (_ : Int) : Except Refusal ℚ :=
  .ok (holdings.total fun symbol position => position.quantity * price symbol)

def unitRate (_ : String) (_ : Int) : Except Refusal ℚ := .ok 1

/-- An accepted portfolio of informed positions and trades at constant prices, with no fees. -/
structure ConstantPrice (events : List Event) : Prop where
  accepted : ∃ holdings, replay events = .ok holdings
  kinds : ∀ event ∈ events, event.kind = .position ∨ event.kind = .buy ∨ event.kind = .sell
  traded : ∀ event ∈ events, event.kind ≠ .position →
    event.total = event.quantity * price event.symbol ∧ event.fees = 0

def NoPhantomProfit (events : List Event) (first last : Int) : Prop :=
  ∃ result, periodResult (valueAt price) unitRate events first last = .ok result ∧
    (result.profitUsd = none ∧ result.reason.isSome ∨ result.profitUsd = some 0)

/-- What the quiet same-day fixes of a period are worth. -/
def quietChange (events : List Event) (first last : Int) : ℚ :=
  ((symbols events).map fun symbol =>
    changeOf (quietFixes (timeline events symbol) (first - 1) last) * price symbol).sum

end

section
variable {price : String → ℚ} {events : List Event}

theorem ConstantPrice.plain (constant : ConstantPrice price events) : ∀ event ∈ events, event.Plain := by
  obtain ⟨holdings, accepted⟩ := constant.accepted
  exact fun event member => ⟨constant.kinds event member, replay_valid accepted member⟩

theorem ConstantPrice.whole (constant : ConstantPrice price events) :
    ∀ event ∈ events, event.kind ≠ .split := by
  intro event member kind
  have := constant.kinds event member
  simp [kind] at this

theorem mem_symbols {symbol : String} : symbol ∈ symbols events ↔ ∃ event ∈ events, event.symbol = symbol := by
  simp [symbols]

theorem restatements_plain (plain : ∀ event ∈ events, event.Plain) :
    restatements events = .ok ((symbols events).map fun symbol =>
      ((timeline events symbol).foldl Scan.step {}).found.map fun day => (symbol, day)).flatten := by
  have scans : ∀ symbol ∈ symbols events,
      (do
        let scan ← (ordered (eventsOf events symbol)).foldlM Scan.record {}
        pure (scan.found.map fun day => (symbol, day)) : Except Refusal (List (String × Int))) =
      .ok (((timeline events symbol).foldl Scan.step {}).found.map fun day => (symbol, day)) := by
    intro symbol _
    have same : ordered (eventsOf events symbol) = timeline events symbol :=
      (stableSort_choose Event.key _ events).symm
    have run : (timeline events symbol).foldlM Scan.record {} =
        .ok ((timeline events symbol).foldl Scan.step {}) :=
      foldlM_pure _ (fun event member scan =>
        Scan.record_plain (plain event (mem_timeline.mp member).1) scan) {}
    rw [same, run]
    rfl
  unfold restatements
  rw [mapM_pure _ scans]
  rfl

def Named (events : List Event) (holdings : Holdings) : Prop :=
  ∀ symbol ∈ holdings.keys, symbol ∈ symbols events

theorem Named.insert {holdings : Holdings} (named : Named events holdings) {own : String}
    (known : own ∈ symbols events) (position : Position) : Named events (holdings.insert own position) := by
  intro symbol member
  by_cases same : symbol = own
  · exact same ▸ known
  · exact named symbol (by simpa [Dict.mem_keys, same] using member)

theorem holdingsAt_keys {day : Int} {closing : Bool} {holdings : Holdings}
    (ok : holdingsAt events day closing = .ok holdings) : Named events holdings := by
  obtain ⟨replayed, replayedOk, ok⟩ := bind_ok ok
  have start : Named events replayed := by
    refine foldlM_keeps (Named events) (fun event member held next names nextOk => ?_)
      (fun symbol member => absurd member List.not_mem_nil) replayedOk
    split at nextOk
    · cases nextOk
      exact names
    · obtain ⟨recorded, _, nextOk⟩ := bind_ok nextOk
      cases nextOk
      exact names.insert (mem_symbols.mpr ⟨event, mem_stableSort.mp member, rfl⟩) _
  refine foldlM_keeps (Named events) (fun entry member held next names nextOk => ?_) start ok
  have known : entry.1 ∈ symbols events := by
    have found : (laterSnapshots events day).get? entry.1 = some entry.2 := Dict.mem_entries.mp member
    rw [laterSnapshots_get?] at found
    cases later : (timeline events entry.1).filter fun event => event.kind = .position ∧ day < event.day with
    | nil =>
      rw [later] at found
      cases found
    | cons event rest =>
      have inLine : event ∈ timeline events entry.1 := List.mem_of_mem_filter (later ▸ List.mem_cons_self)
      exact mem_symbols.mpr ⟨event, mem_timeline.mp inLine⟩
  unfold projectBack at nextOk
  simp only at nextOk
  split_ifs at nextOk
  · cases nextOk
    exact names
  · cases nextOk
    exact names
  · obtain ⟨_, _, nextOk⟩ := bind_ok nextOk
    obtain ⟨_, _, nextOk⟩ := bind_ok nextOk
    cases nextOk
    exact names.insert known _

theorem valueAt_symbols (price : String → ℚ) {day : Int} {closing : Bool} {holdings : Holdings}
    (ok : holdingsAt events day closing = .ok holdings) (day' : Int) :
    valueAt price holdings day' =
      .ok ((symbols events).map fun symbol => quantityOf holdings symbol * price symbol).sum := by
  unfold valueAt
  rw [Dict.total_over _ (List.nodup_dedup _) (holdingsAt_keys ok)]
  congr 3
  funext symbol
  unfold quantityOf Dict.getD
  cases holdings.get? symbol <;> simp

theorem ConstantPrice.flow (constant : ConstantPrice price events) {event : Event}
    (member : event ∈ events) :
    flowOf event event.total event.fees = signed event * price event.symbol := by
  have traded := constant.traded event member
  unfold flowOf signed
  rcases constant.kinds event member with kind | kind | kind
  · simp [kind]
  · obtain ⟨total, fees⟩ := traded (by simp [kind])
    simp [kind, total, fees]
  · obtain ⟨total, fees⟩ := traded (by simp [kind])
    simp [kind, total, fees]

theorem addFlow_ok {event : Event} (valid : event.Valid) (last : Int) {days : Int} (long : days ≠ 0)
    (sums : ℚ × ℚ) : ∃ weighted, addFlow unitRate last days sums event =
      .ok (sums.1 + flowOf event event.total event.fees, weighted) := by
  have longer : (days : ℚ) ≠ 0 := Int.cast_ne_zero.mpr long
  simp only [addFlow, amount_of_nonneg valid.total, amount_of_nonneg valid.fees, bind, Except.bind]
  by_cases still : flowOf event event.total event.fees = 0
  · exact ⟨sums.2, by simp [still, pure, Except.pure]⟩
  · simp only [still, if_false, unitRate, divide, one_ne_zero, longer, pure, Except.pure, div_one]
    exact ⟨_, rfl⟩

theorem addFlow_loop {selected : List Event} (valid : ∀ event ∈ selected, event.Valid) (last : Int)
    {days : Int} (long : days ≠ 0) (sums : ℚ × ℚ) : ∃ weighted, selected.foldlM (addFlow unitRate last days) sums =
      .ok (sums.1 + (selected.map fun event => flowOf event event.total event.fees).sum, weighted) := by
  induction selected generalizing sums with
  | nil => exact ⟨sums.2, by simp [pure, Except.pure]⟩
  | cons event rest ih =>
    obtain ⟨weighted, step⟩ := addFlow_ok (valid event (by simp)) last long sums
    obtain ⟨final, tail⟩ := ih (fun other member => valid other (by simp [member]))
      (sums.1 + flowOf event event.total event.fees, weighted)
    refine ⟨final, ?_⟩
    rw [List.foldlM_cons, step, List.map_cons, List.sum_cons, ← add_assoc]
    exact tail

theorem mem_held {holdings : Holdings} {symbol : String} {quantity : ℚ} :
    (symbol, quantity) ∈ held holdings ↔ quantity ≠ 0 ∧ quantityOf holdings symbol = quantity := by
  unfold held quantityOf Dict.getD
  simp only [List.mem_filter, List.mem_map, decide_eq_true_eq, Prod.mk.injEq]
  constructor
  · rintro ⟨⟨entry, member, rfl, rfl⟩, held⟩
    have found : holdings.get? entry.1 = some entry.2 := Dict.mem_entries.mp member
    exact ⟨held, by simp [found]⟩
  · rintro ⟨held, rfl⟩
    refine ⟨?_, held⟩
    cases found : holdings.get? symbol with
    | none => simp [found] at held
    | some position => exact ⟨(symbol, position), Dict.mem_entries.mpr found, rfl, by simp⟩

theorem sameHeld_quantity {first second : Holdings} (same : sameHeld first second = true)
    (symbol : String) : quantityOf first symbol = quantityOf second symbol := by
  unfold sameHeld at same
  simp only [Bool.and_eq_true, List.all_eq_true, decide_eq_true_eq] at same
  by_cases none : quantityOf first symbol = 0
  · by_contra apart
    have held := same.2 _ (mem_held.mpr ⟨fun zero => apart (none.trans zero.symm), rfl⟩)
    exact apart (mem_held.mp held).2
  · exact (mem_held.mp (same.1 _ (mem_held.mpr ⟨none, rfl⟩))).2.symm

theorem timeline_plain (plain : ∀ event ∈ events, event.Plain) (symbol : String) :
    ∀ event ∈ timeline events symbol, event.Plain :=
  fun event member => plain event (mem_timeline.mp member).1

theorem agrees_timeline (plain : ∀ event ∈ events, event.Plain) {before last : Int}
    (agrees : ∀ cutoff ∈ cutoffs events before last, AgreesAt events cutoff) (symbol : String) :
    Agrees (timeline events symbol) before last := by
  intro snap found after inside
  obtain ⟨snapIn, kind, _⟩ := reference_spec found (timeline_sorted events symbol)
  have listed : cutoffOf snap.day ∈ cutoffs events before last := by
    simp only [cutoffs, mem_stableSort, List.mem_filter, List.mem_dedup, List.mem_map,
      decide_eq_true_eq]
    exact ⟨⟨snap, ⟨(mem_timeline.mp snapIn).1, kind⟩, rfl⟩, after, inside⟩
  obtain ⟨recorded, informed, recordedOk, informedOk, same⟩ := agrees _ listed
  refine ⟨quantityOf recorded symbol, holdingsAt_holds plain recordedOk symbol, ?_⟩
  rw [sameHeld_quantity same symbol]
  exact holdingsAt_holds plain informedOk symbol

theorem movement_selected (events : List Event) (first last : Int) (symbol : String) :
    movement (between (first - 1) last (timeline events symbol)) =
      movement ((events.filter fun event => first ≤ event.day ∧ event.day ≤ last).filter
        fun event => event.symbol = symbol) := by
  have perm : (between (first - 1) last (timeline events symbol)).Perm
      ((events.filter fun event => first ≤ event.day ∧ event.day ≤ last).filter
        fun event => event.symbol = symbol) := by
    unfold between timeline ordered
    rw [List.filter_filter, List.filter_filter]
    have same : (fun event : Event => decide (first - 1 < event.day ∧ event.day ≤ last) &&
        decide (event.symbol = symbol)) = fun event => decide (event.symbol = symbol) &&
          decide (first ≤ event.day ∧ event.day ≤ last) := by
      funext event
      rw [Bool.eq_iff_iff]
      have early : first - 1 < event.day ↔ first ≤ event.day := by omega
      simp only [Bool.and_eq_true, decide_eq_true_eq, early]
      tauto
    rw [same]
    exact (stableSort_perm Event.key events).filter _
  exact (perm.map signed).sum_eq

theorem ConstantPrice.flows (constant : ConstantPrice price events) (first last : Int) :
    ((events.filter fun event => first ≤ event.day ∧ event.day ≤ last).map fun event =>
        flowOf event event.total event.fees).sum =
      ((symbols events).map fun symbol =>
        movement (between (first - 1) last (timeline events symbol)) * price symbol).sum := by
  rw [Dict.sum_by_name Event.symbol _ (List.nodup_dedup _) fun event member =>
    mem_symbols.mpr ⟨event, List.mem_of_mem_filter member, rfl⟩]
  refine congrArg List.sum (List.map_congr_left fun symbol _ => ?_)
  rw [movement_selected, movement, ← List.sum_map_mul_right]
  refine congrArg List.sum (List.map_congr_left fun event member => ?_)
  have own : event.symbol = symbol := by simpa using (List.mem_filter.mp member).2
  rw [constant.flow (List.mem_of_mem_filter (List.mem_of_mem_filter member)), own]

theorem ConstantPrice.closing_value (constant : ConstantPrice price events) {first last : Int}
    (order : first ≤ last) {found : List (String × Int)} (restated : restatements events = .ok found)
    (unrestated : Unrestated found first last)
    (agrees : ∀ cutoff ∈ cutoffs events (first - 1) last, AgreesAt events cutoff)
    {opening closing : Holdings} (openingOk : holdingsAt events (first - 1) = .ok opening)
    (closingOk : holdingsAt events last true = .ok closing) {symbol : String}
    (known : symbol ∈ symbols events) :
    quantityOf closing symbol = quantityOf opening symbol +
      movement (between (first - 1) last (timeline events symbol)) +
        changeOf (quietFixes (timeline events symbol) (first - 1) last) := by
  have plain := constant.plain
  refine holding_change (timeline_sorted events symbol) (timeline_plain plain symbol) (by omega)
    (agrees_timeline plain agrees symbol) ?_ (holdingsAt_holds plain openingOk symbol)
    (holdingsAt_holds plain closingOk symbol)
  intro day flagged inside
  rw [restatements_plain plain] at restated
  cases restated
  refine unrestated (symbol, day) ?_ ⟨by omega, inside.2⟩
  exact List.mem_flatten.mpr ⟨_, List.mem_map.mpr ⟨symbol, known, rfl⟩,
    List.mem_map.mpr ⟨day, flagged, rfl⟩⟩

theorem ConstantPrice.profit (constant : ConstantPrice price events) {first last : Int}
    (order : first ≤ last) (allowed : ¬ Refused events first last) :
    ∃ result, periodResult (valueAt price) unitRate events first last = .ok result ∧
      result.profitUsd = some (quietChange price events first last) := by
  have plain := constant.plain
  have restated := restatements_plain plain
  obtain ⟨unrestated, agrees, opening, closing, openingOk, closingOk, measured⟩ :=
    periodResult_measured (valueAt price) unitRate restated allowed
  have valid : ∀ event ∈ events.filter (fun event => first ≤ event.day ∧ event.day ≤ last),
      event.Valid := fun event member => (plain event (List.mem_of_mem_filter member)).valid
  have long : last - (first - 1) ≠ 0 := by omega
  obtain ⟨weighted, flows⟩ := addFlow_loop valid last long (0, 0)
  refine ⟨_, measured _ (by
    simp only [measure, valueAt_symbols price openingOk, valueAt_symbols price closingOk, flows, bind,
      Except.bind]
    rfl), ?_⟩
  rw [constant.flows first last]
  have gained : ((symbols events).map fun symbol => quantityOf closing symbol * price symbol) =
      (symbols events).map fun symbol => quantityOf opening symbol * price symbol +
        (movement (between (first - 1) last (timeline events symbol)) * price symbol +
          changeOf (quietFixes (timeline events symbol) (first - 1) last) * price symbol) := by
    refine List.map_congr_left fun symbol known => ?_
    rw [constant.closing_value order restated unrestated agrees openingOk closingOk known]
    ring
  rw [gained, List.sum_map_add, List.sum_map_add, quietChange]
  simp only [Option.some.injEq]
  ring

/-- A period reports no phantom profit exactly when it is refused, or when the quiet
same-day fixes in it are worth nothing together. -/
theorem noPhantomProfit_iff (constant : ConstantPrice price events) {first last : Int}
    (order : first ≤ last) :
    NoPhantomProfit price events first last ↔
      Refused events first last ∨ quietChange price events first last = 0 := by
  by_cases refused : Refused events first last
  · obtain ⟨reason, result⟩ := periodResult_refused (valueAt price) unitRate constant.whole
      (restatements_plain constant.plain) refused
    exact ⟨fun _ => .inl refused, fun _ => ⟨_, result, .inl ⟨rfl, rfl⟩⟩⟩
  · obtain ⟨result, ok, profit⟩ := constant.profit order refused
    constructor
    · rintro ⟨other, otherOk, free⟩
      rw [ok] at otherOk
      cases otherOk
      rcases free with ⟨none, _⟩ | zero
      · exact absurd (profit.symm.trans none) (by simp)
      · exact .inr (Option.some.inj (profit.symm.trans zero))
    · rintro (hit | zero)
      · exact absurd hit refused
      · exact ⟨result, ok, .inr (by rw [profit, zero])⟩

end

/-- Ten shares informed in March and again on 1 October, then fixed to fifty. -/
def fixedLater : List Event :=
  [{ symbol := "AAPL", kind := .position, quantity := 10, total := 100, day := 739676, sequence := 1 },
    { symbol := "AAPL", kind := .position, quantity := 10, total := 100, day := 739890, sequence := 2 },
    { symbol := "AAPL", kind := .position, quantity := 50, total := 500, day := 739890, sequence := 3 }]

theorem fixedLater_constant : ConstantPrice (fun _ => 10) fixedLater where
  accepted := ⟨Dict.empty.insert "AAPL" { quantity := 50, basis := 500 }, by decide +kernel⟩
  kinds := by decide +kernel
  traded := by decide +kernel

theorem fixedLater_profit : periodResult (valueAt fun _ => 10) unitRate fixedLater 739890 739895 =
    .ok { first := 739890, last := 739895, profitUsd := some 400, returnPercent := some 400 } := by
  decide +kernel

/-- The fix of a position informed in March counts as profit of October. -/
theorem phantomProfit_fixedLater : ¬ ∀ (price : String → ℚ) (events : List Event) (first last : Int),
    ConstantPrice price events → first ≤ last → NoPhantomProfit price events first last := by
  intro claim
  obtain ⟨result, ok, free⟩ := claim (fun _ => 10) fixedLater 739890 739895 fixedLater_constant (by decide)
  rw [fixedLater_profit] at ok
  cases ok
  simp at free

/-- Without the fix, the period reports nothing. -/
theorem noPhantomProfit_informedTwice : NoPhantomProfit (fun _ => 10) (fixedLater.take 2) 739890 739895 :=
  (noPhantomProfit_iff
    { accepted := ⟨Dict.empty.insert "AAPL" { quantity := 10, basis := 100 }, by decide +kernel⟩
      kinds := by decide +kernel
      traded := by decide +kernel } (by decide)).mpr (.inr (by decide +kernel))

end C3po.Portfolio
