import Mathlib.Algebra.Order.Field.Rat
import Mathlib.Data.List.Induction
import C3po.Library.Loops
import C3po.Portfolio.Accounting

/-! The portfolio symbol by symbol.

Every function of the accounting works on one dictionary, and what it says of a
symbol depends on that symbol's events only: its timeline. The quantity a replay
leaves is a fold over the timeline, and the reference of a reconstruction is the
last informed position on the first informed day.
-/

set_option autoImplicit false

namespace C3po.Portfolio
open C3po.Library

/-- Amounts that pass the check of every amount. -/
structure Event.Valid (event : Event) : Prop where
  quantity : 0 ≤ event.quantity
  total : 0 ≤ event.total
  fees : 0 ≤ event.fees

theorem amount_ok {value result : ℚ} (ok : amount value = .ok result) : result = value ∧ 0 ≤ value := by
  unfold amount at ok
  split at ok
  · cases ok
  · rename_i notNegative
    cases ok
    exact ⟨rfl, not_lt.mp notNegative⟩

@[simp] theorem amount_of_nonneg {value : ℚ} (nonneg : 0 ≤ value) : amount value = .ok value := by
  simp [amount, not_lt.mpr nonneg]

def carry (quantity : ℚ) (event : Event) : ℚ :=
  match event.kind with
  | .position => event.quantity
  | .buy => quantity + event.quantity
  | .sell => quantity - event.quantity
  | .split => quantity * event.quantity / event.splitDenominator
  | _ => quantity

theorem Position.record_spec {position recorded : Position} {event : Event}
    (ok : position.record event = .ok recorded) :
    event.Valid ∧ recorded.quantity = carry position.quantity event := by
  unfold Position.record at ok
  obtain ⟨quantity, quantityOk, ok⟩ := bind_ok ok
  obtain ⟨total, totalOk, ok⟩ := bind_ok ok
  obtain ⟨fees, feesOk, ok⟩ := bind_ok ok
  obtain ⟨denominator, denominatorOk, ok⟩ := bind_ok ok
  obtain ⟨rfl, quantityNonneg⟩ := amount_ok quantityOk
  obtain ⟨rfl, totalNonneg⟩ := amount_ok totalOk
  obtain ⟨rfl, feesNonneg⟩ := amount_ok feesOk
  obtain ⟨rfl, _⟩ := amount_ok denominatorOk
  refine ⟨⟨quantityNonneg, totalNonneg, feesNonneg⟩, ?_⟩
  unfold carry
  cases kind : event.kind <;> simp only [kind] at ok ⊢ <;> split_ifs at ok <;> cases ok <;> rfl

def timeline (events : List Event) (symbol : String) : List Event :=
  (ordered events).filter fun event => event.symbol = symbol

def upTo (day : Int) (line : List Event) : List Event := line.filter fun event => event.day ≤ day

def forward (line : List Event) (day : Int) : ℚ := (upTo day line).foldl carry 0

def quantityOf (holdings : Holdings) (symbol : String) : ℚ := (holdings.getD symbol {}).quantity

theorem recordOn_spec {holdings next : Holdings} {event : Event}
    (ok : recordOn holdings event = .ok next) :
    event.Valid ∧ ∀ symbol, quantityOf next symbol =
      if event.symbol = symbol then carry (quantityOf holdings symbol) event
      else quantityOf holdings symbol := by
  obtain ⟨recorded, recordedOk, ok⟩ := bind_ok ok
  obtain ⟨valid, quantity⟩ := Position.record_spec recordedOk
  cases ok
  refine ⟨valid, fun symbol => ?_⟩
  unfold quantityOf
  by_cases own : event.symbol = symbol
  · subst own
    simpa using quantity
  · simp [own, Ne.symm own]

theorem replay_loop {items : List Event} {through : Option Int} {holdings final : Holdings}
    (ok : items.foldlM (fun holdings event =>
      if through.any (· < event.day) then pure holdings else recordOn holdings event) holdings =
        .ok final) :
    (∀ event ∈ items, through.all (event.day ≤ ·) → event.Valid) ∧
      ∀ symbol, quantityOf final symbol =
        (items.filter fun event => event.symbol = symbol ∧ through.all (event.day ≤ ·)).foldl carry
          (quantityOf holdings symbol) := by
  induction items generalizing holdings with
  | nil =>
    cases ok
    exact ⟨by simp, fun _ => rfl⟩
  | cons event rest ih =>
    obtain ⟨next, nextOk, restOk⟩ := foldlM_cons_ok ok
    obtain ⟨valid, quantity⟩ := ih restOk
    by_cases after : through.any (· < event.day) = true
    · have skipped : through.all (event.day ≤ ·) = false := by
        cases through <;> simp_all
      simp only [after, if_true] at nextOk
      cases nextOk
      refine ⟨?_, fun symbol => by simpa [List.filter_cons, skipped] using quantity symbol⟩
      intro other member reached
      rcases List.mem_cons.mp member with rfl | later
      · simp [skipped] at reached
      · exact valid other later reached
    · have reached : through.all (event.day ≤ ·) = true := by
        cases through <;> simp_all
      simp only [after] at nextOk
      obtain ⟨eventValid, step⟩ := recordOn_spec nextOk
      refine ⟨?_, fun symbol => ?_⟩
      · intro other member otherReached
        rcases List.mem_cons.mp member with rfl | later
        · exact eventValid
        · exact valid other later otherReached
      · rw [quantity symbol, step symbol]
        by_cases own : event.symbol = symbol <;> simp [own, reached]

theorem replay_quantity {events : List Event} {day : Int} {holdings : Holdings}
    (ok : replay events (some day) = .ok holdings) (symbol : String) :
    quantityOf holdings symbol = forward (timeline events symbol) day := by
  have spec := (replay_loop ok).2 symbol
  unfold forward upTo timeline
  rw [List.filter_filter]
  simpa [quantityOf, Bool.and_comm] using spec

theorem replay_valid {events : List Event} {holdings : Holdings}
    (ok : replay events = .ok holdings) {event : Event} (member : event ∈ events) : event.Valid :=
  (replay_loop ok).1 event (mem_stableSort.mpr member) rfl

section
variable {events : List Event} {symbol : String} {day : Int}

theorem mem_timeline {event : Event} :
    event ∈ timeline events symbol ↔ event ∈ events ∧ event.symbol = symbol := by
  simp [timeline, ordered, mem_stableSort]

theorem timeline_sorted (events : List Event) (symbol : String) :
    (timeline events symbol).Pairwise fun first second => first.day ≤ second.day := by
  refine ((stableSort_sorted Event.key events).imp fun before => ?_).filter _
  rcases (Prod.Lex.toLex_le_toLex ..).mp before with earlier | same
  · exact earlier.le
  · exact same.1.le

/-- The last informed position on the first informed day. -/
def reference (line : List Event) : Option Event :=
  (line.filter fun event => event.kind = .position).foldl (fun found event => some (laterOf event found))
    none

theorem reference_loop (line : List Event) (first : Event) :
    ∃ last, line.foldl (fun found event => some (laterOf event found)) (some first) = some last ∧
      last.day = first.day ∧ (last = first ∨ last ∈ line) := by
  induction line generalizing first with
  | nil => exact ⟨first, rfl, rfl, .inl rfl⟩
  | cons event rest ih =>
    by_cases sameDay : event.day = first.day
    · obtain ⟨last, found, day, source⟩ := ih event
      refine ⟨last, by simpa [laterOf, sameDay] using found, day.trans sameDay, .inr ?_⟩
      exact source.elim (fun same => same ▸ List.mem_cons_self) (List.mem_cons_of_mem _)
    · obtain ⟨last, found, day, source⟩ := ih first
      refine ⟨last, by simpa [laterOf, sameDay] using found, day, ?_⟩
      exact source.imp_right (List.mem_cons_of_mem _)

theorem reference_spec {line : List Event} {snap : Event} (found : reference line = some snap)
    (sorted : line.Pairwise fun first second => first.day ≤ second.day) :
    snap ∈ line ∧ snap.kind = .position ∧
      ∀ event ∈ line, event.kind = .position → snap.day ≤ event.day := by
  have sortedPositions := sorted.filter fun event => event.kind = .position
  unfold reference at found
  cases positions : line.filter fun event => event.kind = .position with
  | nil => simp [positions] at found
  | cons first rest =>
    rw [positions] at found sortedPositions
    obtain ⟨last, lastFound, day, source⟩ := reference_loop rest first
    have same : last = snap := Option.some.inj (lastFound.symm.trans found)
    subst same
    have member : last ∈ line.filter fun event => event.kind = .position := by
      rw [positions]
      exact List.mem_cons.mpr source
    have informed := List.mem_filter.mp member
    refine ⟨informed.1, by simpa using informed.2, fun event eventIn kind => ?_⟩
    have position : event ∈ first :: rest := by
      rw [← positions]
      exact List.mem_filter.mpr ⟨eventIn, by simpa using kind⟩
    rw [day]
    rcases List.mem_cons.mp position with rfl | later
    · exact le_rfl
    · exact (List.pairwise_cons.mp sortedPositions).1 event later

theorem reference_none {line : List Event} (none : reference line = none) :
    ∀ event ∈ line, event.kind ≠ .position := by
  intro event member kind
  unfold reference at none
  cases positions : line.filter fun event => event.kind = .position with
  | nil => exact List.filter_eq_nil_iff.mp positions event member (by simpa using kind)
  | cons first rest =>
    obtain ⟨last, found, _⟩ := reference_loop rest first
    rw [positions] at none
    exact nomatch found.symm.trans none

theorem anchored_iff : anchored events day symbol = true ↔
    ∃ event ∈ timeline events symbol, event.kind = .position ∧ event.day ≤ day := by
  simp only [anchored, List.any_eq_true, decide_eq_true_eq, mem_timeline]
  constructor
  · rintro ⟨event, member, kind, before, own⟩
    exact ⟨event, ⟨member, own⟩, kind, before⟩
  · rintro ⟨event, ⟨member, own⟩, kind, before⟩
    exact ⟨event, member, kind, before, own⟩

theorem laterSnapshots_get? (events : List Event) (day : Int) (symbol : String) :
    (laterSnapshots events day).get? symbol =
      ((timeline events symbol).filter fun event => event.kind = .position ∧ day < event.day).foldl
        (fun found event => some (laterOf event found)) none := by
  unfold laterSnapshots timeline
  rw [Dict.get?_foldl Event.symbol laterOf, List.filter_filter, List.filter_filter]
  simp only [Dict.get?_empty, Bool.and_comm]

theorem laterSnapshots_reference (loose : anchored events day symbol = false) :
    (laterSnapshots events day).get? symbol = reference (timeline events symbol) := by
  rw [laterSnapshots_get?]
  unfold reference
  congr 1
  refine List.filter_congr fun event member => ?_
  have after : event.kind = .position → day < event.day := by
    intro kind
    by_contra before
    have : anchored events day symbol = true := anchored_iff.mpr ⟨event, member, kind, not_lt.mp before⟩
    simp [loose] at this
  by_cases kind : event.kind = .position <;> simp [kind, after]

end

/-- The change of a movement. -/
def signed (event : Event) : ℚ :=
  match event.kind with
  | .buy => event.quantity
  | .sell => -event.quantity
  | _ => 0

def movement (line : List Event) : ℚ := (line.map signed).sum

theorem unmove_spec {event : Event} (whole : event.kind ≠ .split) {quantity before : ℚ}
    (ok : unmove quantity event = .ok before) : before = quantity - signed event := by
  unfold unmove at ok
  unfold signed
  split at ok
  · obtain ⟨bought, boughtOk, ok⟩ := bind_ok ok
    cases ok
    rename_i kind
    rw [(amount_ok boughtOk).1, kind]
  · obtain ⟨sold, soldOk, ok⟩ := bind_ok ok
    cases ok
    rename_i kind
    rw [(amount_ok soldOk).1, kind, sub_neg_eq_add]
  · rename_i kind
    exact absurd kind whole
  · cases ok
    split <;> simp_all

theorem undo_spec {event : Event} (whole : event.kind ≠ .split) {quantity before : ℚ}
    (ok : undo quantity event = .ok before) : before = quantity - signed event := by
  obtain ⟨unmoved, unmovedOk, ok⟩ := bind_ok ok
  split at ok
  · cases ok
  · cases ok
    exact unmove_spec whole unmovedOk

theorem undo_loop {moves : List Event} (whole : ∀ event ∈ moves, event.kind ≠ .split)
    {quantity before : ℚ} (ok : moves.foldlM undo quantity = .ok before) :
    before = quantity - movement moves := by
  induction moves generalizing quantity with
  | nil =>
    cases ok
    simp [movement]
  | cons event rest ih =>
    obtain ⟨next, nextOk, restOk⟩ := foldlM_cons_ok ok
    rw [ih (fun other member => whole other (by simp [member])) restOk,
      undo_spec (whole event (by simp)) nextOk]
    simp only [movement, List.map_cons, List.sum_cons]
    ring

theorem movement_reverse (moves : List Event) : movement moves.reverse = movement moves := by
  simp [movement, List.sum_reverse]

theorem movement_filter (line : List Event) (chosen : Event → Bool)
    (others : ∀ event ∈ line, chosen event = false → signed event = 0) :
    movement (line.filter chosen) = movement line := by
  induction line with
  | nil => rfl
  | cons event rest ih =>
    have tail := ih fun other member => others other (by simp [member])
    unfold movement at tail ⊢
    cases kept : chosen event with
    | true => simp [kept, tail]
    | false => simp [kept, tail, others event (by simp) kept]

def between (after upTo : Int) (line : List Event) : List Event :=
  line.filter fun event => after < event.day ∧ event.day ≤ upTo

/-- The holding at `day` that the movements up to the informed position leave it. -/
def backward (line : List Event) (snap : Event) (day : Int) : ℚ :=
  snap.quantity - movement (between day snap.day line)

theorem movement_movesUpTo (events : List Event) (symbol : String) (day : Int) (snap : Event) :
    movement (movesUpTo events symbol day snap) =
      movement (between day snap.day (timeline events symbol)) := by
  have same : movesUpTo events symbol day snap =
      (between day snap.day (timeline events symbol)).filter fun event =>
        event.kind ≠ .position ∧ event.kind ≠ .dividend := by
    unfold movesUpTo between timeline
    rw [List.filter_filter, List.filter_filter]
    refine List.filter_congr fun event _ => ?_
    rw [Bool.eq_iff_iff]
    simp only [Bool.and_eq_true, decide_eq_true_eq]
    tauto
  rw [same]
  refine movement_filter _ _ fun event _ dropped => ?_
  unfold signed
  cases kind : event.kind <;> simp_all

/-- A reconstruction reaches back from the informed position to this day. -/
def Reaches (day : Int) (closing : Bool) (snap : Event) : Prop :=
  cutoffOf snap.day ≤ day ∧ ¬(closing = true ∧ day = cutoffOf snap.day)

instance (day : Int) (closing : Bool) (snap : Event) : Decidable (Reaches day closing snap) :=
  inferInstanceAs (Decidable (_ ∧ _))

section
variable {events : List Event} {day : Int} {closing : Bool}

theorem projectBack_spec (whole : ∀ event ∈ events, event.kind ≠ .split) {holdings next : Holdings}
    {symbol : String} {snap : Event} (ok : projectBack events day closing holdings (symbol, snap) = .ok next) :
    (∀ other, other ≠ symbol → quantityOf next other = quantityOf holdings other) ∧
      if anchored events day symbol = false ∧ Reaches day closing snap then
        (∀ event ∈ movesUpTo events symbol day snap, event.day ≠ snap.day) ∧
          quantityOf next symbol = backward (timeline events symbol) snap day
      else quantityOf next symbol = quantityOf holdings symbol := by
  unfold projectBack at ok
  simp only at ok
  split at ok
  · rename_i anchor
    cases ok
    simp [anchor]
  · rename_i loose
    split at ok
    · rename_i far
      have short : ¬ Reaches day closing snap := fun reaches =>
        far.elim (not_lt.mpr reaches.1) reaches.2
      cases ok
      simp [short]
    · rename_i near
      have reaches : Reaches day closing snap :=
        ⟨not_lt.mp fun before => near (.inl before), fun last => near (.inr last)⟩
      split at ok
      · cases ok
      · rename_i clear
        obtain ⟨informed, informedOk, ok⟩ := bind_ok ok
        obtain ⟨quantity, quantityOk, ok⟩ := bind_ok ok
        cases ok
        rw [(amount_ok informedOk).1] at quantityOk
        have wholeMoves : ∀ event ∈ (movesUpTo events symbol day snap).reverse, event.kind ≠ .split := by
          intro event member
          exact whole event (mem_stableSort.mp (List.mem_filter.mp (List.mem_reverse.mp member)).1)
        have undone := undo_loop wholeMoves quantityOk
        rw [movement_reverse, movement_movesUpTo] at undone
        refine ⟨fun other apart => by simp [quantityOf, apart], ?_⟩
        rw [if_pos ⟨by simpa using loose, reaches⟩]
        refine ⟨by simpa using clear, ?_⟩
        simpa [quantityOf, backward] using undone

theorem projectBack_loop (whole : ∀ event ∈ events, event.kind ≠ .split)
    {entries : List (String × Event)} (distinct : (entries.map Prod.fst).Nodup)
    {holdings final : Holdings}
    (ok : entries.foldlM (projectBack events day closing) holdings = .ok final) (symbol : String) :
    match Dict.find symbol entries with
    | some snap =>
        if anchored events day symbol = false ∧ Reaches day closing snap then
          (∀ event ∈ movesUpTo events symbol day snap, event.day ≠ snap.day) ∧
            quantityOf final symbol = backward (timeline events symbol) snap day
        else quantityOf final symbol = quantityOf holdings symbol
    | none => quantityOf final symbol = quantityOf holdings symbol := by
  induction entries generalizing holdings with
  | nil =>
    cases ok
    rfl
  | cons entry rest ih =>
    obtain ⟨own, snap⟩ := entry
    obtain ⟨next, nextOk, restOk⟩ := foldlM_cons_ok ok
    obtain ⟨others, here⟩ := projectBack_spec whole nextOk
    rw [List.map_cons, List.nodup_cons] at distinct
    have tail := ih distinct.2 restOk
    by_cases same : own = symbol
    · subst same
      have absent : Dict.find own rest = none := by
        cases found : Dict.find own rest with
        | none => rfl
        | some other => exact absurd (Dict.find_isSome.mp (by simp [found])) distinct.1
      simp only [absent] at tail
      simp only [Dict.find, if_true, tail]
      exact here
    · rw [others symbol (Ne.symm same)] at tail
      simpa only [Dict.find, same, if_false] using tail

/-- What `holdingsAt` says of a symbol: the quantity carried forward to the day, or
the reference undone back to it. -/
theorem holdingsAt_quantity (whole : ∀ event ∈ events, event.kind ≠ .split) {holdings : Holdings}
    (ok : holdingsAt events day closing = .ok holdings) (symbol : String) :
    match reference (timeline events symbol) with
    | some snap =>
        if day < snap.day ∧ Reaches day closing snap then
          (∀ event ∈ movesUpTo events symbol day snap, event.day ≠ snap.day) ∧
            quantityOf holdings symbol = backward (timeline events symbol) snap day
        else quantityOf holdings symbol = forward (timeline events symbol) day
    | none => quantityOf holdings symbol = forward (timeline events symbol) day := by
  obtain ⟨replayed, replayedOk, ok⟩ := bind_ok ok
  have loop := projectBack_loop whole (laterSnapshots events day).distinct ok symbol
  rw [replay_quantity replayedOk] at loop
  have sorted := timeline_sorted events symbol
  have lookup : (laterSnapshots events day).get? symbol =
    Dict.find symbol (laterSnapshots events day).entries := rfl
  rw [← lookup] at loop
  cases found : reference (timeline events symbol) with
  | none =>
    have loose : anchored events day symbol = false := by
      by_contra anchor
      obtain ⟨event, member, kind, _⟩ := anchored_iff.mp (Bool.not_eq_false _ ▸ anchor)
      exact reference_none found event member kind
    rw [laterSnapshots_reference loose, found] at loop
    exact loop
  | some snap =>
    obtain ⟨snapIn, snapKind, earliest⟩ := reference_spec found sorted
    by_cases after : day < snap.day
    · have loose : anchored events day symbol = false := by
        by_contra anchor
        obtain ⟨event, member, kind, before⟩ := anchored_iff.mp (Bool.not_eq_false _ ▸ anchor)
        exact absurd (earliest event member kind) (by omega)
      rw [laterSnapshots_reference loose, found] at loop
      simpa only [loose, after, true_and] using loop
    · have anchor : anchored events day symbol = true :=
        anchored_iff.mpr ⟨snap, snapIn, snapKind, not_lt.mp after⟩
      simp only [after, false_and, if_false]
      split at loop
      · simpa [anchor] using loop
      · exact loop

end

/-! What every position of a replay keeps, event by event: nothing negative, no cost without shares,
and a cost that is what was paid less what was taken out.
-/

/-- The money that an event takes out, or what it puts in as a negative amount. -/
def cashOf (event : Event) : ℚ :=
  match event.kind with
  | .sell => event.total - event.fees
  | .dividend => event.total - event.fees
  | .buy => -(event.total + event.fees)
  | _ => 0

def Position.taken (position : Position) : ℚ := position.realized + position.dividends - position.basis

/-- A position holds nothing negative, and one without shares has no cost. -/
structure Position.Sound (position : Position) : Prop where
  quantity : 0 ≤ position.quantity
  basis : 0 ≤ position.basis
  empty : position.quantity = 0 → position.basis = 0

section Step
variable {position recorded : Position} {event : Event}

theorem sound_blank : Position.Sound {} := ⟨le_refl _, le_refl _, fun _ => rfl⟩

theorem sold_basis (sound : position.Sound) {quantity : ℚ} (some : 0 < quantity) (within : quantity ≤ position.quantity) :
    Position.Sound { position with
      quantity := position.quantity - quantity
      basis := position.basis - position.basis * quantity / position.quantity } := by
  have held : 0 < position.quantity := some.trans_le within
  refine ⟨sub_nonneg.mpr within, ?_, fun gone => ?_⟩
  · rw [sub_nonneg, div_le_iff₀ held]
    exact mul_le_mul_of_nonneg_left within sound.basis
  · have all : quantity = position.quantity := (sub_eq_zero.mp gone).symm
    show position.basis - position.basis * quantity / position.quantity = 0
    rw [all, mul_div_cancel_right₀ _ held.ne', sub_self]

theorem Position.record_sound (sound : position.Sound) (ok : position.record event = .ok recorded) :
    recorded.Sound ∧ (event.kind ≠ .position → recorded.taken = position.taken + cashOf event) := by
  unfold Position.record at ok
  obtain ⟨quantity, quantityOk, ok⟩ := bind_ok ok
  obtain ⟨total, totalOk, ok⟩ := bind_ok ok
  obtain ⟨fees, feesOk, ok⟩ := bind_ok ok
  obtain ⟨denominator, denominatorOk, ok⟩ := bind_ok ok
  obtain ⟨rfl, nonneg⟩ := amount_ok quantityOk
  obtain ⟨rfl, totalNonneg⟩ := amount_ok totalOk
  obtain ⟨rfl, feesNonneg⟩ := amount_ok feesOk
  obtain ⟨rfl, denominatorNonneg⟩ := amount_ok denominatorOk
  unfold cashOf Position.taken
  cases kind : event.kind with
  | position =>
    simp only [kind] at ok
    split at ok
    · cases ok
    split at ok
    · cases ok
    split at ok
    · cases ok
    rename_i _ _ costless
    cases ok
    refine ⟨⟨nonneg, totalNonneg, fun none => ?_⟩, fun other => absurd rfl other⟩
    exact not_not.mp fun cost => costless ⟨none, cost⟩
  | buy =>
    simp only [kind] at ok
    split at ok
    · cases ok
    split at ok
    · cases ok
    rename_i _ bought
    cases ok
    have more : 0 < position.quantity + event.quantity := add_pos_of_nonneg_of_pos sound.quantity (not_le.mp bought)
    refine ⟨⟨more.le, add_nonneg sound.basis (add_nonneg totalNonneg feesNonneg), fun none => absurd none more.ne'⟩, fun _ => ?_⟩
    dsimp only
    ring
  | sell =>
    simp only [kind] at ok
    split at ok
    · cases ok
    split at ok
    · cases ok
    split at ok
    · cases ok
    rename_i _ sold _
    cases ok
    rw [not_or, not_le, not_lt] at sold
    have kept := sold_basis sound sold.1 sold.2
    refine ⟨⟨kept.quantity, kept.basis, kept.empty⟩, fun _ => ?_⟩
    dsimp only
    ring
  | dividend =>
    simp only [kind] at ok
    split at ok
    · cases ok
    split at ok
    · cases ok
    cases ok
    refine ⟨⟨sound.quantity, sound.basis, sound.empty⟩, fun _ => ?_⟩
    dsimp only
    ring
  | split =>
    simp only [kind] at ok
    split at ok
    · cases ok
    split at ok
    · cases ok
    rename_i denominated scaled
    cases ok
    rw [not_or, not_le] at denominated
    rw [not_or, not_or, not_le, not_le] at scaled
    have some : 0 < position.quantity * event.quantity / event.splitDenominator :=
      div_pos (mul_pos scaled.2.1 scaled.1) denominated.1
    exact ⟨⟨some.le, sound.basis, fun none => absurd none some.ne'⟩, fun _ => (add_zero _).symm⟩
  | other name =>
    simp only [kind] at ok
    split at ok
    · cases ok
    · cases ok

end Step

/-- What a replay keeps of the events before some point: each position sound, and of a symbol that was
never informed, the money of its events taken out of it. -/
structure Kept (line : List Event) (holdings : Holdings) : Prop where
  sound : ∀ symbol, (holdings.getD symbol {}).Sound
  taken : ∀ symbol, (∀ event ∈ line, event.symbol = symbol → event.kind ≠ .position) →
    (holdings.getD symbol {}).taken = ((eventsOf line symbol).map cashOf).sum

theorem recordOn_kept {line : List Event} {holdings next : Holdings} {event : Event} (kept : Kept line holdings)
    (ok : recordOn holdings event = .ok next) : Kept (line ++ [event]) next := by
  obtain ⟨position, recorded, ok⟩ := bind_ok ok
  cases ok
  obtain ⟨sound, taken⟩ := Position.record_sound (kept.sound event.symbol) recorded
  refine ⟨fun symbol => ?_, fun symbol uninformed => ?_⟩
  · rw [Dict.getD_insert]
    split
    · exact sound
    · exact kept.sound symbol
  · have before := kept.taken symbol fun other member => uninformed other (List.mem_append_left _ member)
    unfold eventsOf at before ⊢
    rw [Dict.getD_insert, List.filter_append, List.map_append, List.sum_append, ← before]
    split
    · rename_i own
      have same : event.symbol = symbol := own.symm
      rw [List.filter_singleton, decide_eq_true same, cond_true, List.map_singleton, List.sum_singleton]
      rw [taken (uninformed event (List.mem_append_right _ (List.mem_singleton_self _)) same), same]
    · rename_i other
      have apart : event.symbol ≠ symbol := fun same => other same.symm
      rw [List.filter_singleton, decide_eq_false apart, cond_false, List.map_nil, List.sum_nil, add_zero]

theorem foldlM_kept {line : List Event} {holdings : Holdings} (ok : line.foldlM recordOn Dict.empty = .ok holdings) : Kept line holdings := by
  induction line using List.reverseRecOn generalizing holdings with
  | nil =>
    cases ok
    refine ⟨fun _ => sound_blank, fun symbol _ => ?_⟩
    show (0 : ℚ) + 0 - 0 = 0
    rw [add_zero, sub_zero]
  | append_singleton line event ih =>
    rw [List.foldlM_append] at ok
    obtain ⟨before, beforeOk, ok⟩ := bind_ok ok
    obtain ⟨next, nextOk, ok⟩ := foldlM_cons_ok ok
    cases ok
    exact recordOn_kept (ih beforeOk) nextOk

/-- Ten shares bought, split in two and all sold. -/
def roundTrip : List Event :=
  [{ symbol := "AAPL", kind := .buy, quantity := 10, total := 1000, fees := 5, day := 739617, sequence := 1 },
   { symbol := "AAPL", kind := .split, quantity := 2, total := 0, day := 739618, sequence := 2 },
   { symbol := "AAPL", kind := .sell, quantity := 20, total := 1200, fees := 7, day := 739619, sequence := 3 }]

end C3po.Portfolio
