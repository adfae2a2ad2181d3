import C3po.Stored.Prediction

/-! A record survives its storage under the identity it was hashed with. -/

set_option autoImplicit false

namespace C3po.Stored

variable {Digest : Type} {setting : Setting Digest}

/-- The bands of the fields are those of their decomposition. -/
structure Coherent (fields : Fields Digest) : Prop where
  mapping : fields.decomposition.isObject = true
  bands : fields.decomposition.get "bands" = .entries [("bear_tp", .ofNumber fields.bearTp), ("bull_tp", .ofNumber fields.bullTp)]

theorem bandOf_ofNumber {bands : Json Digest} {key : String} {value : Option ℚ} (held : bands.get key = .ofNumber value) :
    bandOf setting bands key = .ok value := by
  unfold bandOf
  rw [held]
  cases value <;> rfl

theorem Coherent.readFields {record : Record Digest} (coherent : Coherent record.toFields) :
    readFields setting (columnsOf record) = .ok record.toFields := by
  have bear : (Json.entries [("bear_tp", Json.ofNumber record.bearTp), ("bull_tp", Json.ofNumber record.bullTp)]).get "bear_tp" =
      (Json.ofNumber record.bearTp : Json Digest) := by
    unfold Json.get
    rw [Json.get?_entries]
    rfl
  have bull : (Json.entries [("bear_tp", Json.ofNumber record.bearTp), ("bull_tp", Json.ofNumber record.bullTp)]).get "bull_tp" =
      (Json.ofNumber record.bullTp : Json Digest) := by
    unfold Json.get
    rw [Json.get?_entries]
    rfl
  have mapping := coherent.mapping
  have bands := coherent.bands
  unfold C3po.Stored.readFields columnsOf
  dsimp only
  cases held : record.decomposition with
  | object keys fields =>
    rw [held] at bands
    simp only [pure, Except.pure, bind, Except.bind, bands, Json.isObject_entries, if_true, bandOf_ofNumber bear, bandOf_ofNumber bull]
    rw [← held]
  | _ =>
    rw [held] at mapping
    cases mapping

theorem readFields_error {columns : Columns Digest} {unreadable : Unreadable} (mapping : columns.decomposition.isObject = true)
    (bands : (columns.decomposition.get "bands").isObject = true)
    (bear : bandOf setting (columns.decomposition.get "bands") "bear_tp" = .error unreadable) :
    C3po.Stored.readFields setting columns = .error unreadable := by
  unfold C3po.Stored.readFields
  cases held : columns.decomposition with
  | object keys fields =>
    rw [held] at bands bear
    simp only [pure, Except.pure, bind, Except.bind, bands, if_true, bear]
  | _ =>
    rw [held] at mapping
    cases mapping

theorem Coherent.predictionRecord [DecidableEq Digest] {record : Record Digest} (coherent : Coherent record.toFields) :
    predictionRecord setting (columnsOf record) = .ok (storedPrediction setting { record with schema := none }) := by
  unfold C3po.Stored.predictionRecord
  rw [coherent.readFields]
  rfl

section Emitted
variable {row : Json Digest} {origin : Origin Digest} {id : String} {record : Record Digest}

theorem fingerprinted_decompositionOf (row : Json Digest) (origin : Origin Digest) (weight bearTp bullTp : Option ℚ) :
    fingerprinted (decompositionOf setting row origin weight bearTp bullTp) = true := by
  have provenance : (decompositionOf setting row origin weight bearTp bullTp).get "provenance" = provenance setting row origin := by
    unfold decompositionOf Json.get
    rw [Json.get?_entries]
    rfl
  unfold fingerprinted
  rw [provenance]
  unfold C3po.Stored.provenance
  dsimp only
  split
  · rename_i extra _
    split
    · rw [Json.get?_merge, Json.get?_entries]
      rfl
    · rw [Json.get?_entries]
      rfl
  · rw [Json.get?_entries]
    rfl

theorem bands_decompositionOf (row : Json Digest) (origin : Origin Digest) (weight bearTp bullTp : Option ℚ) :
    (decompositionOf setting row origin weight bearTp bullTp).get "bands" =
      .entries [("bear_tp", .ofNumber bearTp), ("bull_tp", .ofNumber bullTp)] := by
  unfold decompositionOf Json.get
  rw [Json.get?_entries]
  rfl

structure Emitted (setting : Setting Digest) (record : Record Digest) : Prop where
  coherent : Coherent record.toFields
  fingerprinted : fingerprinted record.decomposition = true
  hashed : ∃ available, record.predictionInstant ≤ available ∧ record = record.toFields.hashed setting predictionSchema (some available) record.id
  usable : 0 < record.tp ∧ 0 < record.buyIn

theorem predictionFromRow_emitted (made : predictionFromRow setting row origin id = .ok (some record)) : Emitted setting record := by
  unfold predictionFromRow at made
  split at made
  · cases made
  dsimp only at made
  split at made
  · rename_i tp buyIn readTp readBuyIn
    split at made
    · cases made
    split at made
    · cases made
    rename_i forward
    obtain ⟨session, _, rfl⟩ := Option.map_eq_some_iff.mp (Except.ok.inj made)
    exact
      { coherent := ⟨rfl, bands_decompositionOf ..⟩
        fingerprinted := fingerprinted_decompositionOf ..
        hashed := ⟨_, Int.not_lt.mp forward, rfl⟩
        usable := ⟨of_decide_eq_true (Option.filter_eq_some_iff.mp readTp).2, of_decide_eq_true (Option.filter_eq_some_iff.mp readBuyIn).2⟩ }
  · cases made

variable [DecidableEq Digest]

theorem Emitted.served (emitted : Emitted setting record) (schema : Option String) (known : schema = none ∨ schema = some predictionSchema) :
    storedPrediction setting { record with schema := schema } = some record := by
  obtain ⟨available, _, hashed⟩ := emitted.hashed
  have own : record.schema = some predictionSchema := by rw [hashed]; rfl
  have clocked : record.publishedAt = some available := by rw [hashed]; rfl
  have today : storedAsLegacy { record with schema := schema } = false := by
    unfold storedAsLegacy
    rcases known with rfl | rfl
    · simp [clocked, emitted.fingerprinted]
    · simp [clocked, predictionSchema, legacyPredictionSchema]
  unfold storedPrediction
  rw [if_neg, if_neg, if_pos]
  · rw [← own]
  · rw [today]
    rfl
  · simp [clocked]
  · rcases known with rfl | rfl <;> simp

end Emitted

section Legacy
variable {record : Record Digest}

/-- A decomposition as it was before the provenance named an original. -/
def withoutRerun (decomposition : Json Digest) : Json Digest :=
  decomposition.set "provenance" ((decomposition.get "provenance").erase "rerun_of")

/-- The record of the earlier schema: the same fields without a publication and without the
original, under their own hash. -/
def legacyOf (setting : Setting Digest) (record : Record Digest) : Record Digest :=
  Fields.hashed setting { record.toFields with decomposition := withoutRerun record.decomposition } legacyPredictionSchema none record.id

theorem Emitted.legacy_coherent (emitted : Emitted setting record) : Coherent (legacyOf setting record).toFields where
  mapping := rfl
  bands := by
    change (withoutRerun record.decomposition).get "bands" = _
    unfold withoutRerun Json.get
    rw [Json.get?_set, if_neg (by decide)]
    exact emitted.coherent.bands

theorem withoutRerun_unmarked (decomposition : Json Digest) : fingerprinted (withoutRerun decomposition) = false := by
  unfold fingerprinted withoutRerun
  have provenance (value : Json Digest) : (decomposition.set "provenance" value).get "provenance" = value := by
    unfold Json.get
    rw [Json.get?_set, if_pos rfl]
    rfl
  rw [provenance, Json.get?_erase_self]
  simp

variable [DecidableEq Digest]

theorem legacy_served (setting : Setting Digest) (record : Record Digest) (filled : Option Int) (schema : Option String)
    (known : schema = none ∨ schema = some legacyPredictionSchema) :
    storedPrediction setting { legacyOf setting record with schema := schema, publishedAt := filled } = some (legacyOf setting record) := by
  have legacy : storedAsLegacy { legacyOf setting record with schema := schema, publishedAt := filled } = true := by
    unfold storedAsLegacy
    rcases known with rfl | rfl
    · have unmarked : fingerprinted (legacyOf setting record).decomposition = false := withoutRerun_unmarked record.decomposition
      cases filled <;> simp [unmarked]
    · simp
  unfold storedPrediction
  rw [if_neg, if_neg, if_neg, if_neg]
  · rfl
  · exact not_not_intro rfl
  · rw [legacy]
    decide
  · rintro ⟨claimed, -⟩
    rcases known with rfl | rfl
    · cases claimed
    · exact absurd (Option.some.inj claimed : legacyPredictionSchema = predictionSchema) (by decide)
  · rcases known with rfl | rfl <;> simp

/-- Some field of the hashed core is another. -/
def Altered (setting : Setting Digest) (fields original : Fields Digest) : Prop :=
  ∃ key, (fields.core setting legacyPredictionSchema none).get? key ≠ (original.core setting legacyPredictionSchema none).get? key

theorem altered_refused (injective : Function.Injective setting.canonicalSha256) {original : Fields Digest} {stored : Record Digest}
    (hash : stored.rowSha256 = setting.canonicalSha256 (original.core setting legacyPredictionSchema none))
    (legacy : storedAsLegacy stored = true) (altered : Altered setting stored.toFields original) : storedPrediction setting stored = none := by
  obtain ⟨key, differs⟩ := altered
  unfold storedPrediction
  split
  · rfl
  split
  · rfl
  split
  · rename_i today
    rw [legacy] at today
    cases today
  split
  · rfl
  · rename_i verified
    rw [ne_eq, not_not, hash] at verified
    exact absurd (congrArg (fun core => core.get? key) (injective verified)) differs

/-- A record survives storage, in the database and in the memory double alike: today's record comes
back as it was hashed; one of the earlier schema too, its clock null or filled in place; and a row
of the earlier schema with an altered field serves no record, unless its clock was filled and its
provenance made to name an original. -/
theorem prediction_survives (setting : Setting Digest) (injective : Function.Injective setting.canonicalSha256) {row : Json Digest}
    {origin : Origin Digest} {id : String} {record : Record Digest} (made : predictionFromRow setting row origin id = .ok (some record)) :
    (record.rowSha256 = setting.canonicalSha256 (record.core setting predictionSchema record.publishedAt) ∧
      predictionRecord setting (columnsOf record) = .ok (some record) ∧ storedPrediction setting record = some record ∧
      ∀ table, insertPrediction table record = if record.market ∈ ["B3", "NASDAQ", "NYSE"] ∧ record.scope ∈ ["universe", "targeted"] then
        some (if table.any fun held => held.key = (columnsOf record).key then table else table ++ [columnsOf record]) else none) ∧
    (∀ filled, predictionRecord setting (columnsOf { legacyOf setting record with publishedAt := filled }) = .ok (some (legacyOf setting record)) ∧
      storedPrediction setting { legacyOf setting record with publishedAt := filled } = some (legacyOf setting record)) ∧
    (∀ columns : Columns Digest, columns.rowSha256 = (legacyOf setting record).rowSha256 →
      (∀ fields, readFields setting columns = .ok fields → Altered setting fields (legacyOf setting record).toFields ∧
        ¬(columns.publishedAt.isSome ∧ fingerprinted fields.decomposition)) →
      ∀ served, predictionRecord setting columns ≠ .ok (some served)) ∧
    ∀ (fields : Fields Digest) (publishedAt : Option Int) (id : String), Altered setting fields (legacyOf setting record).toFields →
      storedPrediction setting { fields with
        schema := some legacyPredictionSchema, publishedAt := publishedAt, id := id, rowSha256 := (legacyOf setting record).rowSha256 } = none := by
  have emitted := predictionFromRow_emitted made
  obtain ⟨available, forward, hashed⟩ := emitted.hashed
  have clocked : record.publishedAt = some available := by rw [hashed]; rfl
  refine ⟨⟨?_, ?_, ?_, fun table => ?_⟩, fun filled => ⟨?_, ?_⟩, fun columns hash altered served same => ?_, fun fields publishedAt id altered => ?_⟩
  · rw [clocked, hashed]
    rfl
  · rw [emitted.coherent.predictionRecord, emitted.served none (.inl rfl)]
  · have own : record = { record with schema := some predictionSchema } := by
      rw [hashed]
      rfl
    rw [own]
    exact own ▸ emitted.served (some predictionSchema) (.inr rfl)
  · unfold insertPrediction Columns.admitted
    simp [columnsOf, clocked, forward, emitted.usable]
  · have coherent : Coherent ({ legacyOf setting record with publishedAt := filled } : Record Digest).toFields := emitted.legacy_coherent
    rw [coherent.predictionRecord]
    exact congrArg Except.ok (legacy_served setting record filled none (.inl rfl))
  · exact legacy_served setting record filled (some legacyPredictionSchema) (.inr rfl)
  · unfold predictionRecord at same
    cases read : readFields setting columns with
    | error unreadable =>
      rw [read] at same
      cases same
    | ok fields =>
      obtain ⟨differs, unmarked⟩ := altered fields read
      rw [read] at same
      have legacy : storedAsLegacy { fields with
          schema := none, publishedAt := columns.publishedAt, id := columns.id, rowSha256 := columns.rowSha256 } = true := by
        unfold storedAsLegacy
        cases clock : columns.publishedAt with
        | none => simp
        | some instant =>
          rw [clock] at unmarked
          simpa using unmarked
      have refused := altered_refused injective hash legacy differs
      have answer : Except.ok (ε := Unreadable) (storedPrediction setting { fields with
          schema := none, publishedAt := columns.publishedAt, id := columns.id, rowSha256 := columns.rowSha256 }) = .ok (some served) := same
      rw [refused] at answer
      cases answer
  · exact altered_refused injective rfl (by simp [storedAsLegacy]) altered

end Legacy

section Sample

/-- A hash of JSON that is the JSON itself. -/
inductive Fingerprint where
  | of (json : Json Fingerprint)

noncomputable instance : DecidableEq Fingerprint := Classical.decEq _

def sampleSetting : Setting Fingerprint where
  float _ := none
  str _ := ""
  iso := toString
  loads _ := none
  canonicalSha256 := .of
  sessionDateOf _ _ := some "2026-01-02"

theorem sample_injective : Function.Injective sampleSetting.canonicalSha256 := fun _ _ same => Fingerprint.of.inj same

def sampleRow : Json Fingerprint := .entries [("symbol", .text "petr4"), ("our_tp", .number 12), ("buy_in", .number 9)]

def sampleOrigin : Origin Fingerprint :=
  { market := "B3", scope := "universe", cycleId := "cycle", sourceVersion := "7", predictionInstant := 10 }

theorem sample_made : ∃ record, predictionFromRow sampleSetting sampleRow sampleOrigin "id" = .ok (some record) ∧ record.tp = 12 := by
  have made : ((predictionFromRow sampleSetting sampleRow sampleOrigin "id").toOption.join.any fun record => decide (record.tp = 12)) = true := by
    decide +kernel
  cases found : predictionFromRow sampleSetting sampleRow sampleOrigin "id" with
  | error unread =>
    rw [found] at made
    cases made
  | ok answer =>
    rw [found] at made
    cases answer with
    | none => cases made
    | some record => exact ⟨record, rfl, of_decide_eq_true made⟩

theorem prediction_survives_sample : ∃ record, predictionRecord sampleSetting (columnsOf record) = .ok (some record) ∧ record.tp = 12 ∧
    predictionRecord sampleSetting (columnsOf (legacyOf sampleSetting record)) = .ok (some (legacyOf sampleSetting record)) := by
  obtain ⟨record, made, tp⟩ := sample_made
  obtain ⟨⟨_, read, _⟩, legacy, _⟩ := prediction_survives sampleSetting sample_injective made
  exact ⟨record, read, tp, (legacy none).1⟩

/-- A row of the earlier schema whose target was altered, whose clock was filled in and whose
provenance was made to name an original is served; one whose band is a list is an error. -/
theorem relabelled_served : ∃ (legacy : Record Fingerprint) (altered unread : Columns Fingerprint),
    predictionRecord sampleSetting (columnsOf legacy) = .ok (some legacy) ∧
    altered.rowSha256 = legacy.rowSha256 ∧ altered.tp = 700 ∧ legacy.tp = 12 ∧
    (∃ served, predictionRecord sampleSetting altered = .ok (some served) ∧ served.tp = 700 ∧ served.schema = some predictionSchema) ∧
    unread.rowSha256 = legacy.rowSha256 ∧ predictionRecord sampleSetting unread = .error (.band "bear_tp") := by
  obtain ⟨record, made, tp⟩ := sample_made
  have emitted := predictionFromRow_emitted made
  let legacy := legacyOf sampleSetting record
  let relabelled : Record Fingerprint := { record with publishedAt := some 10, tp := 700, rowSha256 := legacy.rowSha256 }
  let listed : Json Fingerprint := .entries [("bands", .entries [("bear_tp", .array 0 nofun)])]
  have coherent : Coherent relabelled.toFields := ⟨emitted.coherent.mapping, emitted.coherent.bands⟩
  have today : storedAsLegacy { relabelled with schema := none } = false := by
    unfold storedAsLegacy
    simp [relabelled, emitted.fingerprinted]
  have served : storedPrediction sampleSetting { relabelled with schema := none } = some { relabelled with schema := some predictionSchema } := by
    unfold storedPrediction
    rw [if_neg, if_neg, if_pos]
    · rw [today]
      rfl
    · simp
    · simp
  refine ⟨legacy, columnsOf relabelled, { columnsOf legacy with decomposition := listed }, ?_, rfl, rfl, tp, ⟨{ relabelled with schema := some predictionSchema }, ?_, rfl, rfl⟩, rfl, ?_⟩
  · rw [emitted.legacy_coherent.predictionRecord]
    exact congrArg Except.ok (legacy_served sampleSetting record none none (.inl rfl))
  · rw [coherent.predictionRecord, served]
  · have bands : listed.get "bands" = .entries [("bear_tp", .array 0 nofun)] := by
      unfold listed Json.get
      rw [Json.get?_entries]
      rfl
    have bear : bandOf sampleSetting (.entries [("bear_tp", .array 0 nofun)]) "bear_tp" = .error (.band "bear_tp") := by
      unfold bandOf Json.get
      rw [Json.get?_entries]
      rfl
    have unread : readFields sampleSetting { columnsOf legacy with decomposition := listed } = .error (.band "bear_tp") :=
      readFields_error rfl (by rw [bands]; rfl) (by rw [bands]; exact bear)
    unfold predictionRecord
    rw [unread]
    rfl

end Sample

end C3po.Stored
