import Mathlib.Tactic.Linarith
import C3po.Library.Loops
import C3po.Library.OrderStatistics

/-! The aggregate of an ensemble: four centres of the values of its models, each without and with the
consensus as one more value. Values are exact.
-/

set_option autoImplicit false

namespace C3po.Ensemble
open C3po.Library

inductive NotEvaluable where
  | duplicateModelIdentity
  | invalidNumber (name : String)
  | modelValueNotPositive
  | inconsistentModelResult
  | consensusNotPositive
  | evaluatedConsensusHasMissingReason
  | invalidConsensusMissingReason
  deriving DecidableEq, Repr

inductive ModelStatus where
  | evaluated
  | notEvaluable
  | other (text : String)
  deriving DecidableEq, Repr

structure ModelValue where
  model : String
  value : Option ℚ
  status : ModelStatus
  reason : Option String
  deriving DecidableEq, Repr

inductive Method where
  | mean
  | median
  | trimmedMean20
  | minmaxTrimmedMean
  deriving DecidableEq, Repr

structure VariantId where
  method : Method
  withConsensus : Bool
  deriving DecidableEq, Repr

structure Variant where
  reason : Option String
  value : Option ℚ
  fundamentalModels : ℕ
  consensusIncluded : Bool
  consensusReason : Option String
  sampleSize : ℕ
  trimmedEachTail : ℕ
  retainedCount : ℕ
  deriving DecidableEq, Repr

def Variant.status (variant : Variant) : String := if variant.reason.isSome then "not_evaluable" else "evaluated"

structure Grid where
  primary : VariantId
  variants : List (VariantId × Variant)
  models : List ModelValue
  deriving DecidableEq, Repr

def minModels : ℕ := 3

def gridPrimaryVariant : VariantId := ⟨.minmaxTrimmedMean, true⟩

def number (value : Option ℚ) (name : String) : Except NotEvaluable ℚ :=
  match value with
  | some value => .ok value
  | none => .error (.invalidNumber name)

def ModelValue.fundamental (model : ModelValue) : Except NotEvaluable (Option ℚ) :=
  match model.status with
  | .evaluated => do
      let value ← number model.value model.model
      if value ≤ 0 then .error .modelValueNotPositive else .ok (some value)
  | status =>
      if status ≠ .notEvaluable ∨ model.value.isSome ∨ model.reason = none ∨ model.reason = some "" then .error .inconsistentModelResult
      else .ok none

/-- Why there is no consensus, where there is none. -/
def missingReason (consensus : Option ℚ) (consensusReason : Option String) : Except NotEvaluable (Option String) :=
  match consensus with
  | some consensus =>
      if consensus ≤ 0 then .error .consensusNotPositive
      else if consensusReason.isSome then .error .evaluatedConsensusHasMissingReason
      else .ok none
  | none =>
      let reason := consensusReason.getD "unavailable"
      if reason = "" then .error .invalidConsensusMissingReason else .ok (some reason)

/-- How many observations a method removes from each tail. -/
def Method.trimmed (method : Method) (size : ℕ) : ℕ :=
  match method with
  | .minmaxTrimmedMean => if minModels ≤ size then 1 else 0
  | .trimmedMean20 => size / 5
  | _ => 0

def Method.retained (method : Method) (sample : List ℚ) : List ℚ :=
  let trimmed := method.trimmed sample.length
  (sample.take (sample.length - trimmed)).drop trimmed

def meanOf (values : List ℚ) : ℚ := (values.map fun value => value / (values.length : ℚ)).sum

def medianOf (values : List ℚ) : ℚ :=
  let middle := values.length / 2
  if values.length % 2 = 1 then values.getD middle 0 else values.getD (middle - 1) 0 / 2 + values.getD middle 0 / 2

def Method.centre (method : Method) (retained : List ℚ) : ℚ :=
  match method with
  | .median => medianOf retained
  | _ => meanOf retained

/-- The values of a sample: the fundamental ones, and the consensus where it is included. -/
def sampleOf (values : List ℚ) (consensus : Option ℚ) (withConsensus : Bool) : List ℚ :=
  values ++ if withConsensus then consensus.toList else []

def variant (values : List ℚ) (consensus : Option ℚ) (missing : Option String) (id : VariantId) : Variant :=
  let sample := (sampleOf values consensus id.withConsensus).insertionSort (· ≤ ·)
  let retained := id.method.retained sample
  let reason := if sample.length < minModels then some "ensemble_fewer_than_min_models" else none
  { reason
    value := if reason.isNone then some (id.method.centre retained) else none
    fundamentalModels := values.length
    consensusIncluded := id.withConsensus && consensus.isSome
    consensusReason := if id.withConsensus && consensus.isNone then missing.map ("consensus:" ++ ·) else none
    sampleSize := sample.length
    trimmedEachTail := id.method.trimmed sample.length
    retainedCount := retained.length }

def variantIds : List VariantId :=
  [false, true].flatMap fun withConsensus => [Method.mean, .median, .trimmedMean20, .minmaxTrimmedMean].map (⟨·, withConsensus⟩)

def aggregateGridVariants (models : List ModelValue) (consensus : Option ℚ) (consensusReason : Option String) : Except NotEvaluable Grid := do
  if ¬(models.map ModelValue.model).Nodup then throw .duplicateModelIdentity
  let values ← models.mapM ModelValue.fundamental
  let missing ← missingReason consensus consensusReason
  pure
    { primary := gridPrimaryVariant
      variants := variantIds.map fun id => (id, variant values.reduceOption consensus missing id)
      models }

example : meanOf ((Method.minmaxTrimmedMean).retained [1, 2, 3, 10]) = 5 / 2 := by decide +kernel

/-! The aggregate as a centre of its sample: free of order, bounded, monotone, and out of reach of any
one value.
-/

section Estimators
variable {values others : List ℚ} {low high : ℚ}

theorem share_le {value other : ℚ} (le : value ≤ other) (count : ℕ) : value / count ≤ other / count :=
  div_le_div_of_nonneg_right le (Nat.cast_nonneg count)

theorem meanOf_mono (pointwise : List.Forall₂ (· ≤ ·) values others) : meanOf values ≤ meanOf others := by
  unfold meanOf
  rw [pointwise.length_eq]
  refine List.Forall₂.sum_le_sum ?_
  rw [List.forall₂_map_left_iff, List.forall₂_map_right_iff]
  exact pointwise.imp fun _ _ le => share_le le _

theorem medianOf_mono (pointwise : List.Forall₂ (· ≤ ·) values others) : medianOf values ≤ medianOf others := by
  unfold medianOf
  dsimp only
  rw [pointwise.length_eq]
  split
  · exact forall₂_getD pointwise _
  · have first := @forall₂_getD ℚ _ _ _ 0 pointwise (others.length / 2 - 1)
    have second := @forall₂_getD ℚ _ _ _ 0 pointwise (others.length / 2)
    linarith

theorem meanOf_replicate {count : ℕ} (some : 0 < count) (value : ℚ) : meanOf (List.replicate count value) = value := by
  have nonzero : (count : ℚ) ≠ 0 := Nat.cast_ne_zero.mpr some.ne'
  unfold meanOf
  rw [List.map_replicate, List.sum_replicate, List.length_replicate, nsmul_eq_mul, mul_div_cancel₀ value nonzero]

theorem forall₂_replicate_left (bound : ∀ value ∈ values, low ≤ value) : List.Forall₂ (· ≤ ·) (List.replicate values.length low) values := by
  induction values with
  | nil => exact .nil
  | cons first rest ih =>
    exact .cons (bound first List.mem_cons_self) (ih fun value member => bound value (List.mem_cons_of_mem first member))

theorem forall₂_replicate_right (bound : ∀ value ∈ values, value ≤ high) : List.Forall₂ (· ≤ ·) values (List.replicate values.length high) := by
  induction values with
  | nil => exact .nil
  | cons first rest ih =>
    exact .cons (bound first List.mem_cons_self) (ih fun value member => bound value (List.mem_cons_of_mem first member))

theorem le_meanOf (some : values ≠ []) (bound : ∀ value ∈ values, low ≤ value) : low ≤ meanOf values := by
  rw [← meanOf_replicate (List.length_pos_iff.mpr some) low]
  exact meanOf_mono (forall₂_replicate_left bound)

theorem meanOf_le (some : values ≠ []) (bound : ∀ value ∈ values, value ≤ high) : meanOf values ≤ high := by
  rw [← meanOf_replicate (List.length_pos_iff.mpr some) high]
  exact meanOf_mono (forall₂_replicate_right bound)

/-- The values that a median reads. -/
def Middle (values : List ℚ) (value : ℚ) : Prop :=
  value = values.getD (values.length / 2) 0 ∨ values.length % 2 = 0 ∧ value = values.getD (values.length / 2 - 1) 0

theorem le_medianOf (bound : ∀ value, Middle values value → low ≤ value) : low ≤ medianOf values := by
  have second := bound _ (.inl rfl)
  unfold medianOf
  dsimp only
  split
  · exact second
  · have first := bound _ (.inr ⟨by omega, rfl⟩)
    linarith

theorem medianOf_le (bound : ∀ value, Middle values value → value ≤ high) : medianOf values ≤ high := by
  have second := bound _ (.inl rfl)
  unfold medianOf
  dsimp only
  split
  · exact second
  · have first := bound _ (.inr ⟨by omega, rfl⟩)
    linarith

theorem Middle.mem {value : ℚ} (middle : Middle values value) (some : values ≠ []) : value ∈ values := by
  have pos := List.length_pos_iff.mpr some
  rcases middle with rfl | ⟨even, rfl⟩
  · rw [List.getD_eq_getElem _ _ (by omega)]
    exact List.getElem_mem _
  · rw [List.getD_eq_getElem _ _ (by omega)]
    exact List.getElem_mem _

theorem Middle.inside {value : ℚ} (middle : Middle values value) (three : 3 ≤ values.length) : value ∈ values.tail ∧ value ∈ values.dropLast := by
  rcases middle with rfl | ⟨even, rfl⟩
  · exact ⟨getD_mem_tail (by omega) (by omega), getD_mem_dropLast (by omega)⟩
  · exact ⟨getD_mem_tail (by omega) (by omega), getD_mem_dropLast (by omega)⟩

end Estimators

section Methods
variable {sample other : List ℚ}

theorem trimmed_lt (method : Method) {size : ℕ} (three : 3 ≤ size) : 2 * method.trimmed size < size := by
  cases method with
  | mean | median =>
    show 2 * 0 < size
    omega
  | trimmedMean20 =>
    show 2 * (size / 5) < size
    omega
  | minmaxTrimmedMean =>
    show 2 * (if minModels ≤ size then 1 else 0) < size
    split <;> omega

theorem mem_of_mem_retained {method : Method} {value : ℚ} (member : value ∈ method.retained sample) : value ∈ sample :=
  List.mem_of_mem_take (List.mem_of_mem_drop member)

theorem length_retained (method : Method) (sample : List ℚ) :
    (method.retained sample).length = sample.length - 2 * method.trimmed sample.length := by
  unfold Method.retained
  rw [List.length_drop, List.length_take]
  omega

theorem retained_ne_nil {method : Method} (three : 3 ≤ sample.length) : method.retained sample ≠ [] := by
  have := trimmed_lt method three
  apply List.ne_nil_of_length_pos
  rw [length_retained]
  omega

theorem le_centre (method : Method) {retained : List ℚ} {low : ℚ} (some : retained ≠ []) (bound : ∀ value ∈ retained, low ≤ value) :
    low ≤ method.centre retained := by
  have middle : low ≤ medianOf retained := le_medianOf fun value middle => bound value (middle.mem some)
  cases method with
  | median => exact middle
  | mean | trimmedMean20 | minmaxTrimmedMean => exact le_meanOf some bound

theorem centre_le (method : Method) {retained : List ℚ} {high : ℚ} (some : retained ≠ []) (bound : ∀ value ∈ retained, value ≤ high) :
    method.centre retained ≤ high := by
  have middle : medianOf retained ≤ high := medianOf_le fun value middle => bound value (middle.mem some)
  cases method with
  | median => exact middle
  | mean | trimmedMean20 | minmaxTrimmedMean => exact meanOf_le some bound

theorem centre_mono (method : Method) (pointwise : List.Forall₂ (· ≤ ·) sample other) :
    method.centre (method.retained sample) ≤ method.centre (method.retained other) := by
  have retained : List.Forall₂ (· ≤ ·) (method.retained sample) (method.retained other) := by
    unfold Method.retained
    rw [pointwise.length_eq]
    exact List.forall₂_drop _ (List.forall₂_take _ pointwise)
  cases method with
  | median => exact medianOf_mono retained
  | mean | trimmedMean20 | minmaxTrimmedMean => exact meanOf_mono retained

/-- The methods that leave both ends of the sample out. -/
def Method.inner (method : Method) : Prop := method = .minmaxTrimmedMean ∨ method = .median

theorem inside_of_mem_retained {value : ℚ} (three : 3 ≤ sample.length) (member : value ∈ Method.retained .minmaxTrimmedMean sample) :
    value ∈ sample.tail ∧ value ∈ sample.dropLast := by
  have one : Method.trimmed .minmaxTrimmedMean sample.length = 1 := if_pos three
  unfold Method.retained at member
  rw [one] at member
  constructor
  · rw [List.drop_take] at member
    rw [← List.drop_one]
    exact List.mem_of_mem_take member
  · rw [List.dropLast_eq_take]
    exact List.mem_of_mem_drop member

theorem retained_median (sample : List ℚ) : Method.retained .median sample = sample := List.take_length

theorem le_inner {method : Method} {low : ℚ} (inner : method.inner) (three : 3 ≤ sample.length) (bound : ∀ value ∈ sample.tail, low ≤ value) :
    low ≤ method.centre (method.retained sample) := by
  rcases inner with rfl | rfl
  · exact le_centre _ (retained_ne_nil three) fun value member => bound value (inside_of_mem_retained three member).1
  · rw [retained_median]
    exact le_medianOf fun value middle => bound value (middle.inside three).1

theorem inner_le {method : Method} {high : ℚ} (inner : method.inner) (three : 3 ≤ sample.length) (bound : ∀ value ∈ sample.dropLast, value ≤ high) :
    method.centre (method.retained sample) ≤ high := by
  rcases inner with rfl | rfl
  · exact centre_le _ (retained_ne_nil three) fun value member => bound value (inside_of_mem_retained three member).2
  · rw [retained_median]
    exact medianOf_le fun value middle => bound value (middle.inside three).2

theorem inner_between {method : Method} {values : List ℚ} {replacement : ℚ} (inner : method.inner) (perm : values.Perm (replacement :: other))
    (three : 3 ≤ values.length) : Between other (method.centre (method.retained (values.insertionSort (· ≤ ·)))) := by
  have length : (values.insertionSort (· ≤ ·)).length = values.length := List.length_insertionSort _ _
  have sorted := List.pairwise_insertionSort (· ≤ · : ℚ → ℚ → Prop) values
  have reordered := (List.perm_insertionSort (· ≤ · : ℚ → ℚ → Prop) values).trans perm
  have few : ∀ breaks : ℚ → Bool, (∀ value ∈ other, breaks value = false) → (values.insertionSort (· ≤ ·)).countP breaks ≤ 1 := by
    intro breaks none
    have zero : other.countP breaks = 0 := List.countP_eq_zero.mpr fun value member => by rw [none value member]; exact Bool.false_ne_true
    rw [reordered.countP_eq, List.countP_cons, zero]
    split <;> omega
  have some : other ≠ [] := by
    rintro rfl
    have := perm.length_eq
    rw [List.length_singleton] at this
    omega
  refine between_of_bounds some (fun low bound => ?_) fun high bound => ?_
  · refine le_inner inner (by omega) fun value member => le_of_mem_tail sorted (few _ fun value member => ?_) member
    exact decide_eq_false (not_lt.mpr (bound value member))
  · refine inner_le inner (by omega) fun value member => le_of_mem_dropLast sorted (few _ fun value member => ?_) member
    exact decide_eq_false (not_lt.mpr (bound value member))

theorem centre_between (method : Method) {values : List ℚ} (three : 3 ≤ values.length) :
    Between values (method.centre (method.retained (values.insertionSort (· ≤ ·)))) := by
  have length : (values.insertionSort (· ≤ ·)).length = values.length := List.length_insertionSort _ _
  have retained : method.retained (values.insertionSort (· ≤ ·)) ≠ [] := retained_ne_nil (by omega)
  have known : ∀ value ∈ method.retained (values.insertionSort (· ≤ ·)), value ∈ values := fun value member =>
    (List.mem_insertionSort _).mp (mem_of_mem_retained member)
  refine between_of_bounds (List.ne_nil_of_length_pos (by omega)) (fun low bound => ?_) fun high bound => ?_
  · exact le_centre method retained fun value member => bound value (known value member)
  · exact centre_le method retained fun value member => bound value (known value member)

end Methods

section Acceptance
variable {models : List ModelValue} {consensus : Option ℚ} {consensusReason : Option String} {grid : Grid}

def ModelValue.own (model : ModelValue) : Option ℚ := if model.status = .evaluated then model.value else none

def fundamentals (models : List ModelValue) : List ℚ := (models.map ModelValue.own).reduceOption

theorem fundamental_ok {model : ModelValue} {value : Option ℚ} (ok : model.fundamental = .ok value) : value = model.own := by
  unfold ModelValue.fundamental at ok
  unfold ModelValue.own
  split at ok
  · rename_i evaluated
    obtain ⟨number, read, ok⟩ := bind_ok ok
    rw [if_pos evaluated]
    split at ok
    · cases ok
    · cases ok
      unfold Ensemble.number at read
      split at read
      · cases read
        exact (by assumption : model.value = _).symm
      · cases read
  · rename_i evaluated
    split at ok
    · cases ok
    · cases ok
      rw [if_neg evaluated]

theorem mapM_fundamental_ok {values : List (Option ℚ)} (ok : models.mapM ModelValue.fundamental = .ok values) :
    values = models.map ModelValue.own ∧ ∀ model ∈ models, model.fundamental = .ok model.own := by
  induction models generalizing values with
  | nil =>
    cases ok
    exact ⟨rfl, fun _ member => nomatch member⟩
  | cons model rest ih =>
    rw [List.mapM_cons] at ok
    obtain ⟨value, first, ok⟩ := bind_ok ok
    obtain ⟨later, remaining, ok⟩ := bind_ok ok
    cases ok
    obtain ⟨rfl, each⟩ := ih remaining
    cases fundamental_ok first
    refine ⟨rfl, fun other member => ?_⟩
    rcases List.mem_cons.mp member with rfl | later
    · exact first
    · exact each other later

/-- The inputs that are accepted: distinct models, each one sound, and a sound consensus or a reason for none. -/
structure Accepted (models : List ModelValue) (consensus : Option ℚ) (consensusReason : Option String) (missing : Option String) : Prop where
  distinct : (models.map ModelValue.model).Nodup
  sound : ∀ model ∈ models, model.fundamental = .ok model.own
  missing : missingReason consensus consensusReason = .ok missing

def gridOf (models : List ModelValue) (consensus : Option ℚ) (missing : Option String) : Grid where
  primary := gridPrimaryVariant
  variants := variantIds.map fun id => (id, variant (fundamentals models) consensus missing id)
  models := models

theorem aggregate_eq_ok : aggregateGridVariants models consensus consensusReason = .ok grid ↔
    ∃ missing, Accepted models consensus consensusReason missing ∧ grid = gridOf models consensus missing := by
  unfold aggregateGridVariants
  by_cases distinct : (models.map ModelValue.model).Nodup
  · rw [if_neg (not_not.mpr distinct)]
    constructor
    · intro ok
      obtain ⟨values, read, ok⟩ := bind_ok ok
      obtain ⟨missing, reason, ok⟩ := bind_ok ok
      obtain ⟨rfl, sound⟩ := mapM_fundamental_ok read
      cases ok
      exact ⟨missing, ⟨distinct, sound, reason⟩, rfl⟩
    · rintro ⟨missing, accepted, rfl⟩
      show (models.mapM ModelValue.fundamental >>= _) = _
      rw [mapM_pure models accepted.sound]
      show (missingReason consensus consensusReason >>= _) = _
      rw [accepted.missing]
      rfl
  · rw [if_pos distinct]
    constructor
    · intro ok
      cases ok
    · rintro ⟨missing, accepted, rfl⟩
      exact absurd accepted.distinct distinct

end Acceptance

/-! What the eight variants promise of the models and the consensus that they aggregate. -/

def Raised (model other : ModelValue) : Prop := ∃ value, Option.Rel (· ≤ ·) model.value value ∧ other = { model with value := value }

/-- A variant that was evaluated stays so, at no lower a value. -/
def NotLowered (entry other : VariantId × Variant) : Prop :=
  entry.1 = other.1 ∧ ∀ value, entry.2.value = some value → ∃ higher, other.2.value = some higher ∧ value ≤ higher

/-- The variants as centres: whatever the order of the models, between the ends of their sample, never
lowered by a raise, and with one value replaced by any other still between the rest. -/
structure Central (models : List ModelValue) (consensus : Option ℚ) (consensusReason : Option String) (grid : Grid) : Prop where
  primary : grid.primary = ⟨.minmaxTrimmedMean, true⟩
  orderFree : ∀ models', models.Perm models' →
    ∃ grid', aggregateGridVariants models' consensus consensusReason = .ok grid' ∧ grid'.variants = grid.variants
  bounded : ∀ id variant value, (id, variant) ∈ grid.variants → variant.value = some value →
    Between (sampleOf (fundamentals models) consensus id.withConsensus) value
  monotone : ∀ models' consensus', List.Forall₂ Raised models models' → Option.Rel (· ≤ ·) consensus consensus' →
    ∃ grid', aggregateGridVariants models' consensus' consensusReason = .ok grid' ∧ List.Forall₂ NotLowered grid.variants grid'.variants
  modelResistant : ∀ before model after, models = before ++ model :: after → model.status = .evaluated → ∀ replacement : ℚ, 0 < replacement →
    ∃ grid', aggregateGridVariants (before ++ { model with value := some replacement } :: after) consensus consensusReason = .ok grid' ∧
      ∀ id variant, (id, variant) ∈ grid'.variants → id.method.inner → 3 ≤ variant.sampleSize →
        ∃ value, variant.value = some value ∧ Between (sampleOf (fundamentals (before ++ after)) consensus id.withConsensus) value
  consensusResistant : ∀ old, consensus = some old → ∀ replacement : ℚ, 0 < replacement →
    ∃ grid', aggregateGridVariants models (some replacement) consensusReason = .ok grid' ∧
      ∀ id variant, (id, variant) ∈ grid'.variants → id.withConsensus = true → id.method.inner → 3 ≤ variant.sampleSize →
        ∃ value, variant.value = some value ∧ Between (fundamentals models) value

section Variants
variable {values others : List ℚ} {consensus consensus' : Option ℚ} {missing missing' : Option String} {id : VariantId}

theorem variant_sampleSize (values : List ℚ) (consensus : Option ℚ) (missing : Option String) (id : VariantId) :
    (variant values consensus missing id).sampleSize = (sampleOf values consensus id.withConsensus).length :=
  List.length_insertionSort _ _

theorem variant_value (values : List ℚ) (consensus : Option ℚ) (missing : Option String) (id : VariantId) :
    (variant values consensus missing id).value =
      if 3 ≤ (sampleOf values consensus id.withConsensus).length then
        some (id.method.centre (id.method.retained ((sampleOf values consensus id.withConsensus).insertionSort (· ≤ ·))))
      else none := by
  have length := variant_sampleSize values consensus missing id
  change ((sampleOf values consensus id.withConsensus).insertionSort (· ≤ ·)).length = _ at length
  unfold variant
  dsimp only
  rw [length]
  by_cases three : 3 ≤ (sampleOf values consensus id.withConsensus).length
  · rw [if_neg (show ¬_ < minModels from not_lt.mpr three), if_pos three]
    rfl
  · rw [if_pos (show _ < minModels from not_le.mp three), if_neg three]
    rfl

theorem variant_congr (perm : values.Perm others) : variant values consensus missing id = variant others consensus missing id := by
  have same : (sampleOf values consensus id.withConsensus).insertionSort (· ≤ ·) =
      (sampleOf others consensus id.withConsensus).insertionSort (· ≤ ·) := insertionSort_congr (perm.append_right _)
  unfold variant
  rw [same, perm.length_eq]

theorem variant_between {value : ℚ} (evaluated : (variant values consensus missing id).value = some value) :
    Between (sampleOf values consensus id.withConsensus) value := by
  rw [variant_value] at evaluated
  split at evaluated
  · rename_i three
    cases evaluated
    exact centre_between id.method three
  · cases evaluated

theorem sampleOf_mono (pointwise : List.Forall₂ (· ≤ ·) values others) (raised : Option.Rel (· ≤ ·) consensus consensus') (withConsensus : Bool) :
    List.Forall₂ (· ≤ ·) (sampleOf values consensus withConsensus) (sampleOf others consensus' withConsensus) := by
  refine List.rel_append pointwise ?_
  cases withConsensus with
  | false => exact .nil
  | true =>
    cases raised with
    | some le => exact .cons le .nil
    | none => exact .nil

theorem variant_notLowered (pointwise : List.Forall₂ (· ≤ ·) values others) (raised : Option.Rel (· ≤ ·) consensus consensus') :
    NotLowered (id, variant values consensus missing id) (id, variant others consensus' missing' id) := by
  have sample := sampleOf_mono pointwise raised id.withConsensus
  refine ⟨rfl, fun value evaluated => ?_⟩
  rw [variant_value] at evaluated
  split at evaluated
  · rename_i three
    cases evaluated
    refine ⟨_, ?_, centre_mono id.method (forall₂_insertionSort sample)⟩
    rw [variant_value, if_pos (sample.length_eq ▸ three)]
  · cases evaluated

theorem variant_inner {rest : List ℚ} {replacement : ℚ} (inner : id.method.inner)
    (perm : (sampleOf values consensus id.withConsensus).Perm (replacement :: rest))
    (three : 3 ≤ (variant values consensus missing id).sampleSize) :
    ∃ value, (variant values consensus missing id).value = some value ∧ Between rest value := by
  rw [variant_sampleSize] at three
  refine ⟨_, ?_, inner_between inner perm three⟩
  rw [variant_value, if_pos three]

end Variants

section Models
variable {models models' : List ModelValue} {consensus consensus' : Option ℚ} {consensusReason missing : Option String} {model other : ModelValue}

theorem fundamental_evaluated (evaluated : model.status = .evaluated) {value : ℚ} (pos : 0 < value) :
    ({ model with value := some value } : ModelValue).fundamental = .ok (some value) ∧
      ({ model with value := some value } : ModelValue).own = some value := by
  unfold ModelValue.fundamental ModelValue.own
  rw [evaluated]
  refine ⟨?_, rfl⟩
  show (if value ≤ 0 then Except.error NotEvaluable.modelValueNotPositive else .ok (some value)) = _
  rw [if_neg (not_le.mpr pos)]

theorem sound_value (sound : model.fundamental = .ok model.own) :
    (model.status = .evaluated ∧ ∃ value, model.value = some value ∧ 0 < value) ∨ model.status = .notEvaluable ∧ model.value = none := by
  unfold ModelValue.fundamental at sound
  split at sound
  · rename_i evaluated
    obtain ⟨value, read, sound⟩ := bind_ok sound
    unfold number at read
    split at read
    · rename_i value' known
      cases read
      split at sound
      · cases sound
      · rename_i positive
        exact .inl ⟨evaluated, value, known, not_le.mp positive⟩
    · cases read
  · split at sound
    · cases sound
    · rename_i consistent
      rw [not_or, not_or, not_not, Bool.not_eq_true, Option.isSome_eq_false_iff, Option.isNone_iff_eq_none] at consistent
      exact .inr ⟨consistent.1, consistent.2.1⟩

theorem Raised.sound (raised : Raised model other) (sound : model.fundamental = .ok model.own) :
    other.fundamental = .ok other.own ∧ Option.Rel (· ≤ ·) model.own other.own := by
  obtain ⟨value, raises, rfl⟩ := raised
  rcases sound_value sound with ⟨evaluated, old, known, pos⟩ | ⟨refused, none⟩
  · rw [known] at raises
    cases raises with
    | @some _ higher le =>
      obtain ⟨read, own⟩ := fundamental_evaluated evaluated (pos.trans_le le)
      refine ⟨read.trans (congrArg _ own.symm), ?_⟩
      rw [own]
      unfold ModelValue.own
      rw [if_pos evaluated, known]
      exact .some le
  · rw [none] at raises
    cases raises
    have same : ({ model with value := Option.none } : ModelValue) = model := by
      cases model
      cases none
      rfl
    rw [same]
    refine ⟨sound, ?_⟩
    unfold ModelValue.own
    rw [if_neg (by rw [refused]; exact fun same => nomatch same)]
    exact .none

theorem fundamentals_cons (model : ModelValue) (rest : List ModelValue) : fundamentals (model :: rest) = model.own.toList ++ fundamentals rest := by
  unfold fundamentals
  rw [List.map_cons]
  cases model.own <;> rfl

theorem fundamentals_mono (raised : List.Forall₂ Raised models models') (sound : ∀ model ∈ models, model.fundamental = .ok model.own) :
    (∀ model ∈ models', model.fundamental = .ok model.own) ∧ models'.map ModelValue.model = models.map ModelValue.model ∧
      List.Forall₂ (· ≤ ·) (fundamentals models) (fundamentals models') := by
  induction raised with
  | nil => exact ⟨fun _ member => (nomatch member), rfl, .nil⟩
  | @cons model other rest rest' raises _ ih =>
    obtain ⟨each, same, pointwise⟩ := ih fun model member => sound model (List.mem_cons_of_mem _ member)
    obtain ⟨own, le⟩ := raises.sound (sound model List.mem_cons_self)
    refine ⟨fun model member => ?_, ?_, ?_⟩
    · rcases List.mem_cons.mp member with rfl | later
      · exact own
      · exact each model later
    · obtain ⟨value, -, rfl⟩ := raises
      rw [List.map_cons, List.map_cons, same]
    · rw [fundamentals_cons, fundamentals_cons]
      refine List.rel_append ?_ pointwise
      generalize model.own = old, other.own = new at le
      cases le with
      | some le => exact .cons le .nil
      | none => exact .nil

theorem fundamentals_perm (perm : models.Perm models') : (fundamentals models).Perm (fundamentals models') := by
  unfold fundamentals
  exact (perm.map _).filterMap _

theorem missingReason_raised (accepted : missingReason consensus consensusReason = .ok missing) (raised : Option.Rel (· ≤ ·) consensus consensus') :
    missingReason consensus' consensusReason = .ok missing := by
  cases raised with
  | none => exact accepted
  | @some old higher le =>
    unfold missingReason at accepted ⊢
    dsimp only at accepted ⊢
    split at accepted
    · cases accepted
    · rename_i positive
      rw [if_neg (not_le.mpr ((not_le.mp positive).trans_le le))]
      exact accepted

theorem missingReason_replaced {old : ℚ} (accepted : missingReason (some old) consensusReason = .ok missing) {replacement : ℚ}
    (pos : 0 < replacement) : missingReason (some replacement) consensusReason = .ok missing := by
  unfold missingReason at accepted ⊢
  dsimp only at accepted ⊢
  rw [if_neg (not_le.mpr pos)]
  split at accepted
  · cases accepted
  · exact accepted

theorem mem_variants {grid : Grid} {id : VariantId} {entry : Variant} (made : grid = gridOf models consensus missing)
    (member : (id, entry) ∈ grid.variants) : entry = variant (fundamentals models) consensus missing id := by
  rw [made] at member
  obtain ⟨other, -, same⟩ := List.mem_map.mp member
  cases same
  rfl

end Models

end C3po.Ensemble
