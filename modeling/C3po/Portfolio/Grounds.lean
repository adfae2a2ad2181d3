import C3po.Portfolio.Periods

/-! The grounds on which a period is refused.

`periodResult` measures a period exactly when none of five grounds holds, and it
turns every error of a reconstruction into a reason.
-/

set_option autoImplicit false

namespace C3po.Portfolio
open C3po.Library

/-- Both bases hold the same at a cutoff. -/
def AgreesAt (events : List Event) (cutoff : Int) : Prop :=
  ∃ recorded informed, holdingsAt events cutoff true = .ok recorded ∧
    holdingsAt events cutoff = .ok informed ∧ sameHeld recorded informed = true

/-- The grounds on which a period is refused. -/
inductive Refused (events : List Event) (first last : Int) : Prop where
  | unproven (empty : unproven events (first - 1) = true)
  | corrected {found : List (String × Int)} {entry : String × Int}
      (restated : restatements events = .ok found) (member : entry ∈ found)
      (inside : first ≤ entry.2 ∧ entry.2 ≤ last)
  | switched {cutoff : Int} (member : cutoff ∈ cutoffs events (first - 1) last)
      (apart : ¬ AgreesAt events cutoff)
  | opening (unknown : ∀ holdings, holdingsAt events (first - 1) ≠ .ok holdings)
  | closing (unknown : ∀ holdings, holdingsAt events last true ≠ .ok holdings)

/-! ### What the calls raise -/

/-- The refusals a period reports as its reason. -/
def Refusal.Caught : Refusal → Prop
  | .value _ => True
  | .ambiguousDay _ => True
  | _ => False

theorem amount_caught {value : ℚ} {refusal : Refusal} (raised : amount value = .error refusal) :
    refusal.Caught := by
  unfold amount at raised
  split at raised
  · cases raised
    trivial
  · cases raised

theorem Position.record_caught {position : Position} {event : Event} {refusal : Refusal}
    (raised : position.record event = .error refusal) : refusal.Caught := by
  unfold Position.record at raised
  rcases bind_error raised with here | ⟨_, _, raised⟩
  · exact amount_caught here
  rcases bind_error raised with here | ⟨_, _, raised⟩
  · exact amount_caught here
  rcases bind_error raised with here | ⟨_, _, raised⟩
  · exact amount_caught here
  rcases bind_error raised with here | ⟨_, _, raised⟩
  · exact amount_caught here
  cases kind : event.kind <;> simp only [kind] at raised <;> split_ifs at raised <;> cases raised <;> trivial

theorem replay_caught {events : List Event} {through : Option Int} {refusal : Refusal}
    (raised : replay events through = .error refusal) : refusal.Caught := by
  refine foldlM_error (fun event _ holdings refusal raised => ?_) raised
  split at raised
  · cases raised
  · rcases bind_error raised with here | ⟨_, _, raised⟩
    · exact Position.record_caught here
    · cases raised

theorem undo_caught {event : Event} (whole : event.kind ≠ .split) {quantity : ℚ} {refusal : Refusal}
    (raised : undo quantity event = .error refusal) : refusal.Caught := by
  rcases bind_error raised with here | ⟨_, _, raised⟩
  · unfold unmove at here
    split at here
    · exact (bind_error here).elim amount_caught fun later => nomatch later.choose_spec.2
    · exact (bind_error here).elim amount_caught fun later => nomatch later.choose_spec.2
    · rename_i kind
      exact absurd kind whole
    · cases here
  · split at raised
    · cases raised
      trivial
    · cases raised

theorem holdingsAt_caught {events : List Event} (whole : ∀ event ∈ events, event.kind ≠ .split)
    {day : Int} {closing : Bool} {refusal : Refusal}
    (raised : holdingsAt events day closing = .error refusal) : refusal.Caught := by
  rcases bind_error raised with here | ⟨_, _, raised⟩
  · exact replay_caught here
  · refine foldlM_error (fun entry _ holdings refusal raised => ?_) raised
    unfold projectBack at raised
    simp only at raised
    split_ifs at raised
    · cases raised
      trivial
    · rcases bind_error raised with here | ⟨_, _, raised⟩
      · exact amount_caught here
      rcases bind_error raised with here | ⟨_, _, raised⟩
      · refine foldlM_error (fun event member _ _ raised => undo_caught ?_ raised) here
        exact whole event (mem_stableSort.mp (List.mem_filter.mp (List.mem_reverse.mp member)).1)
      · cases raised

section
variable {events : List Event} {first last before : Int}

theorem switchAt_agrees {between : List Int} :
    switchAt events between = .ok none ↔ ∀ cutoff ∈ between, AgreesAt events cutoff := by
  induction between with
  | nil => simp [switchAt, pure, Except.pure]
  | cons cutoff later ih =>
    constructor
    · intro ok
      obtain ⟨recorded, recordedOk, ok⟩ := bind_ok ok
      obtain ⟨informed, informedOk, ok⟩ := bind_ok ok
      split at ok
      · rename_i same
        intro other member
        rcases List.mem_cons.mp member with rfl | tail
        · exact ⟨recorded, informed, recordedOk, informedOk, same⟩
        · exact ih.mp ok other tail
      · cases ok
    · intro agrees
      obtain ⟨recorded, informed, recordedOk, informedOk, same⟩ := agrees cutoff (by simp)
      have tail := ih.mpr fun other member => agrees other (by simp [member])
      simp only [switchAt, recordedOk, informedOk, bind, Except.bind, same, if_true, tail]

theorem switchAt_caught (whole : ∀ event ∈ events, event.kind ≠ .split) {between : List Int}
    {refusal : Refusal} (raised : switchAt events between = .error refusal) : refusal.Caught := by
  induction between with
  | nil => cases raised
  | cons cutoff later ih =>
    rcases bind_error raised with here | ⟨_, _, raised⟩
    · exact holdingsAt_caught whole here
    rcases bind_error raised with here | ⟨_, _, raised⟩
    · exact holdingsAt_caught whole here
    split at raised
    · exact ih raised
    · cases raised

theorem bounds_caught (whole : ∀ event ∈ events, event.kind ≠ .split) {refusal : Refusal}
    (raised : bounds events before last = .error refusal) : refusal.Caught := by
  rcases bind_error raised with here | ⟨found, _, raised⟩
  · exact switchAt_caught whole here
  cases found with
  | some cutoff => cases raised
  | none =>
    rcases bind_error raised with here | ⟨_, _, raised⟩
    · exact holdingsAt_caught whole here
    rcases bind_error raised with here | ⟨_, _, raised⟩
    · exact holdingsAt_caught whole here
    cases raised

theorem bounds_measured {opening closing : Holdings} :
    bounds events before last = .ok (.inr (opening, closing)) ↔
      (∀ cutoff ∈ cutoffs events before last, AgreesAt events cutoff) ∧
        holdingsAt events before = .ok opening ∧ holdingsAt events last true = .ok closing := by
  constructor
  · intro ok
    obtain ⟨found, foundOk, ok⟩ := bind_ok ok
    cases found with
    | some cutoff => cases ok
    | none =>
      obtain ⟨opened, openedOk, ok⟩ := bind_ok ok
      obtain ⟨closed, closedOk, ok⟩ := bind_ok ok
      cases ok
      exact ⟨switchAt_agrees.mp foundOk, openedOk, closedOk⟩
  · rintro ⟨agrees, openedOk, closedOk⟩
    simp only [bounds, switchAt_agrees.mpr agrees, bind, Except.bind, openedOk, closedOk]
    rfl

variable (value : Holdings → Int → Except Refusal ℚ) (rate : String → Int → Except Refusal ℚ)

/-- Nothing restated lies in the period. -/
def Unrestated (found : List (String × Int)) (first last : Int) : Prop :=
  ∀ entry ∈ found, ¬(first ≤ entry.2 ∧ entry.2 ≤ last)

theorem crossed_nil {found : List (String × Int)} :
    stableSort Prod.snd (found.filter fun entry => first - 1 < entry.2 ∧ entry.2 ≤ last) = [] ↔
      Unrestated found first last := by
  rw [← List.length_eq_zero_iff, (stableSort_perm _ _).length_eq, List.length_eq_zero_iff,
    List.filter_eq_nil_iff]
  refine forall₂_congr fun entry _ => ?_
  simp only [decide_eq_true_eq]
  omega

theorem periodResult_refused (whole : ∀ event ∈ events, event.kind ≠ .split)
    {found : List (String × Int)} (restated : restatements events = .ok found)
    (refused : Refused events first last) :
    ∃ reason, periodResult value rate events first last =
      .ok { first := first, last := last, reason := some reason } := by
  unfold periodResult
  simp only [restated, bind, Except.bind]
  by_cases empty : unproven events (first - 1) = true
  · simp only [empty, if_true]
    exact ⟨_, rfl⟩
  simp only [empty]
  cases crossed : stableSort Prod.snd
      (found.filter fun entry => first - 1 < entry.2 ∧ entry.2 ≤ last) with
  | cons entry rest => exact ⟨_, rfl⟩
  | nil =>
    have unrestated := crossed_nil.mp crossed
    cases bounded : bounds events (first - 1) last with
    | error refusal =>
      have caught := bounds_caught whole bounded
      cases refusal with
      | value text => exact ⟨_, rfl⟩
      | ambiguousDay symbol => exact ⟨_, rfl⟩
      | key name => exact caught.elim
      | arithmetic => exact caught.elim
    | ok bound =>
      cases bound with
      | inl cutoff => exact ⟨_, rfl⟩
      | inr pair =>
        obtain ⟨opening, closing⟩ := pair
        obtain ⟨agrees, openingOk, closingOk⟩ := bounds_measured.mp bounded
        cases refused with
        | unproven hit => exact absurd hit empty
        | corrected restatedToo member inside =>
          rw [restated] at restatedToo
          cases restatedToo
          exact absurd inside (unrestated _ member)
        | switched member apart => exact absurd (agrees _ member) apart
        | opening unknown => exact absurd openingOk (unknown opening)
        | closing unknown => exact absurd closingOk (unknown closing)

theorem periodResult_measured {found : List (String × Int)} (restated : restatements events = .ok found)
    (allowed : ¬ Refused events first last) :
    Unrestated found first last ∧
    (∀ cutoff ∈ cutoffs events (first - 1) last, AgreesAt events cutoff) ∧
    ∃ opening closing, holdingsAt events (first - 1) = .ok opening ∧
      holdingsAt events last true = .ok closing ∧
      ∀ result, measure value rate events { first := first, last := last } opening closing = .ok result →
        periodResult value rate events first last = .ok result := by
  have unrestated : Unrestated found first last := fun entry member inside =>
    allowed (.corrected restated member inside)
  have agrees : ∀ cutoff ∈ cutoffs events (first - 1) last, AgreesAt events cutoff :=
    fun cutoff member => not_not.mp fun apart => allowed (.switched member apart)
  obtain ⟨opening, openingOk⟩ : ∃ opening, holdingsAt events (first - 1) = .ok opening := by
    by_contra unknown
    exact allowed (.opening fun holdings ok => unknown ⟨holdings, ok⟩)
  obtain ⟨closing, closingOk⟩ : ∃ closing, holdingsAt events last true = .ok closing := by
    by_contra unknown
    exact allowed (.closing fun holdings ok => unknown ⟨holdings, ok⟩)
  have proven : ¬ unproven events (first - 1) = true := fun empty => allowed (.unproven empty)
  refine ⟨unrestated, agrees, opening, closing, openingOk, closingOk, fun result measured => ?_⟩
  unfold periodResult
  simp only [restated, bind, Except.bind, proven]
  rw [crossed_nil.mpr unrestated, bounds_measured.mpr ⟨agrees, openingOk, closingOk⟩]
  simp only [measured]
  rfl

end

/-! One symbol's projection from a later informed position, apart from the holdings it is
written to: what it gives at a day depends on the events only.
-/

/-- The quantity a later informed position gives a symbol at `day`, where it reaches so far. -/
def projected (events : List Event) (day : Int) (closing : Bool) (entry : String × Event) : Except Refusal (Option ℚ) :=
  if anchored events day entry.1 then .ok none
  else if day < cutoffOf entry.2.day ∨ (closing ∧ day = cutoffOf entry.2.day) then .ok none
  else if (movesUpTo events entry.1 day entry.2).any fun event => event.day = entry.2.day then .error (.ambiguousDay entry.1)
  else do
    let informed ← amount entry.2.quantity
    let quantity ← (movesUpTo events entry.1 day entry.2).reverse.foldlM undo informed
    pure (some quantity)

/-- The holdings with a projected quantity, if there is one. -/
def write (holdings : Holdings) (symbol : String) : Option ℚ → Holdings
  | none => holdings
  | some quantity => holdings.insert symbol { holdings.getD symbol {} with quantity := quantity }

theorem projectBack_eq (events : List Event) (day : Int) (closing : Bool) (holdings : Holdings) (entry : String × Event) :
    projectBack events day closing holdings entry = (projected events day closing entry).map (write holdings entry.1) := by
  unfold projectBack projected
  dsimp only
  split
  · rfl
  · split
    · rfl
    · split
      · rfl
      · cases amount entry.2.quantity with
        | error refusal => rfl
        | ok informed =>
          cases undone : (movesUpTo events entry.1 day entry.2).reverse.foldlM undo informed with
          | error refusal => simp [undone, bind, Except.bind, Except.map]
          | ok quantity => simp [undone, bind, Except.bind, Except.map, pure, Except.pure, write]

theorem projectBack_ok {events : List Event} {day : Int} {closing : Bool} {holdings next : Holdings} {entry : String × Event}
    (ok : projectBack events day closing holdings entry = .ok next) :
    ∃ quantity, projected events day closing entry = .ok quantity ∧ next = write holdings entry.1 quantity := by
  rw [projectBack_eq] at ok
  cases found : projected events day closing entry with
  | error refusal =>
    rw [found] at ok
    cases ok
  | ok quantity =>
    rw [found] at ok
    cases ok
    exact ⟨quantity, rfl, rfl⟩

theorem quantityOf_write {holdings : Holdings} {symbol : String} (quantity : Option ℚ) :
    quantityOf (write holdings symbol quantity) symbol = quantity.getD (quantityOf holdings symbol) := by
  cases quantity with
  | none => rfl
  | some quantity => simp [write, quantityOf]

theorem quantityOf_write_ne {holdings : Holdings} {symbol other : String} (apart : other ≠ symbol) (quantity : Option ℚ) :
    quantityOf (write holdings symbol quantity) other = quantityOf holdings other := by
  cases quantity with
  | none => rfl
  | some quantity => simp [write, quantityOf, apart]

theorem quantityOf_projections {events : List Event} {day : Int} {closing : Bool} {entries : List (String × Event)} {holdings final : Holdings}
    (ok : entries.foldlM (projectBack events day closing) holdings = .ok final) {symbol : String} (absent : symbol ∉ entries.map Prod.fst) :
    quantityOf final symbol = quantityOf holdings symbol := by
  induction entries generalizing holdings with
  | nil =>
    cases ok
    rfl
  | cons entry rest ih =>
    obtain ⟨next, nextOk, restOk⟩ := foldlM_cons_ok ok
    obtain ⟨quantity, _, rfl⟩ := projectBack_ok nextOk
    rw [List.map_cons, List.mem_cons, not_or] at absent
    rw [ih restOk absent.2, quantityOf_write_ne absent.1]

theorem projected_closing {events : List Event} {day : Int} {entry : String × Event} {closing opening : Option ℚ}
    (closes : projected events day true entry = .ok closing) (opens : projected events day false entry = .ok opening) :
    closing = opening ∨ (closing = none ∧ day = cutoffOf entry.2.day) := by
  by_cases last : day = cutoffOf entry.2.day
  · right
    refine ⟨?_, last⟩
    unfold projected at closes
    split at closes
    · cases closes
      rfl
    · rw [if_pos (.inr ⟨rfl, last⟩)] at closes
      cases closes
      rfl
  · left
    have same : projected events day true entry = projected events day false entry := by
      unfold projected
      simp only [last, and_false, or_false]
    rw [same, opens] at closes
    cases closes
    rfl

end C3po.Portfolio
