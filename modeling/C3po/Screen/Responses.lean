import C3po.Screen.Screener

/-! Every response is of one generation, in force while it was made. -/

set_option autoImplicit false

namespace C3po.Screen
open C3po.Library
open C3po.Official (Calendars Cycle Generation Reading Row ServedRow Setting Sound Store later_grows official
  saveAnalysisSnapshot saveAnalysisSnapshot_spec universeKey)

variable {Digest : Type} {setting : Setting Digest} {config : Config} {process : ℕ} {A B : Type}
  {world : World} {log : List (Event World Answer)}

/-- What a script leaves when it ends, whatever the others do in between. -/
abbrev Leads (setting : Setting Digest) (config : Config) (script : Script A) (log : List (Event World Answer)) (world : World)
    (good : A → List (Event World Answer) → World → Prop) : Prop :=
  (serving setting config).Holds script log world good

abbrev Since (setting : Setting Digest) (config : Config) : World → World → Prop := (serving setting config).Later

theorem Since.official {next : World} (since : Since setting config world next) : (official setting).Later world.store next.store :=
  (serving_part setting config).later since

theorem Since.kept {next : World} (since : Since setting config world next) (kept : Kept setting config world) :
    Kept setting config next := Protocol.Later.keeps since kept

theorem Leads.next {script : Script A} {rest : A → Script B} {good : A → List (Event World Answer) → World → Prop}
    {post : B → List (Event World Answer) → World → Prop} (kept : Kept setting config world)
    (first : Leads setting config script log world good)
    (after : ∀ value final next, log <+: final → Since setting config world next → Kept setting config next → good value final next →
      Leads setting config (rest value) final next post) : Leads setting config (script >>= rest) log world post := by
  refine Protocol.Holds.bind (first.traced.mono fun value final next _ traced => ?_)
  exact after value final next traced.2.1 traced.2.2 (Since.kept traced.2.2 kept) traced.1

theorem Leads.pure {value : A} {post : A → List (Event World Answer) → World → Prop}
    (holds : ∀ next, Since setting config world next → post value log next) :
    Leads setting config (Pure.pure value) log world post := Protocol.Holds.pure holds

/-- An attribute that holds a response takes only a faithful one. -/
def Honest (config : Config) (store : Store) (change : Screener → Screener) : Prop :=
  ∀ screener response,
    ((change screener).cached = some response → screener.cached = some response ∨ Faithful config store response) ∧
    ((change screener).matrixCached = some response → screener.matrixCached = some response ∨ Faithful config store response)

theorem Honest.later {store next : Store} {change : Screener → Screener} (sound : Sound setting store)
    (later : (Official.official setting).Later store next) (honest : Honest config store change) : Honest config next change :=
  fun screener response =>
    ⟨fun held => ((honest screener response).1 held).imp_right fun faithful => faithful.later sound later,
      fun held => ((honest screener response).2 held).imp_right fun faithful => faithful.later sound later⟩

theorem Kept.assigned (kept : Kept setting config world) {change : Screener → Screener} (honest : Honest config world.store change) :
    Kept setting config (world.setScreener process (change (world.screeners process))) where
  sound := kept.sound
  cached other response held := by
    change (Function.update world.screeners process _ other).cached = some response at held
    by_cases same : other = process
    · subst same
      rw [Function.update_self] at held
      exact ((honest _ response).1 held).elim (kept.cached other response) id
    · rw [Function.update_of_ne same] at held
      exact kept.cached other response held
  matrixCached other response held := by
    change (Function.update world.screeners process _ other).matrixCached = some response at held
    by_cases same : other = process
    · subst same
      rw [Function.update_self] at held
      exact ((honest _ response).2 held).elim (kept.matrixCached other response) id
    · rw [Function.update_of_ne same] at held
      exact kept.matrixCached other response held
  candidates := kept.candidates

theorem assign_leads {change : Screener → Screener} (kept : Kept setting config world) (honest : Honest config world.store change) :
    Leads setting config (assign process change) log world fun _ _ _ => True := by
  intro next since
  refine ⟨Relation.ReflTransGen.single ⟨Protocol.Later.refl _, fun keptNext => keptNext.assigned ?_⟩, fun _ _ => trivial⟩
  exact honest.later kept.sound (Since.official since)

theorem honest_plain {store : Store} {change : Screener → Screener} (cached : ∀ screener, (change screener).cached = screener.cached)
    (matrixCached : ∀ screener, (change screener).matrixCached = screener.matrixCached ∨ (change screener).matrixCached = none) :
    Honest config store change := by
  refine fun screener response => ⟨fun held => .inl (cached screener ▸ held), fun held => ?_⟩
  rcases matrixCached screener with same | none
  · exact .inl (same ▸ held)
  · rw [none] at held
    cases held

theorem honest_cached {store : Store} {response : Response} (faithful : Faithful config store response) :
    Honest config store fun screener => { screener with cached := some response } := by
  refine fun screener other => ⟨fun held => ?_, .inl⟩
  cases held
  exact .inr faithful

theorem honest_matrixCached {store : Store} {response : Response} (faithful : Faithful config store response) :
    Honest config store fun screener => { screener with matrixCached := some response } := by
  refine fun screener other => ⟨.inl, fun held => ?_⟩
  cases held
  exact .inr faithful

theorem assign_next {change : Screener → Screener} {rest : Script B} {post : B → List (Event World Answer) → World → Prop}
    (kept : Kept setting config world) (cached : ∀ screener, (change screener).cached = screener.cached)
    (matrixCached : ∀ screener, (change screener).matrixCached = screener.matrixCached ∨ (change screener).matrixCached = none)
    (after : ∀ final next, log <+: final → Since setting config world next → Kept setting config next →
      Leads setting config rest final next post) : Leads setting config (assign process change >>= fun _ => rest) log world post :=
  Leads.next kept (assign_leads kept (honest_plain cached matrixCached)) fun _ final next longer since keptNext _ =>
    after final next longer since keptNext

section Hydration

theorem look_leads {field : Screener → A} : Leads setting config (look process field) log world fun value final next =>
    ∃ seen, Since setting config world seen ∧ Since setting config seen next ∧ value = field (seen.screeners process) ∧
      final = log ++ [.stepped seen seen] :=
  fun seen since => ⟨Protocol.Later.refl seen, fun _ after => ⟨seen, since, after, rfl, rfl⟩⟩

theorem outdated_leads {field : Screener → Option A} {clock : A → Int} {publishedAt : Int} (kept : Kept setting config world) :
    Leads setting config (outdated process field clock publishedAt) log world fun _ _ _ => True := by
  refine Leads.next kept look_leads fun value final next _ _ keptNext _ => ?_
  cases value with
  | none => exact Leads.pure fun _ _ => trivial
  | some _ => exact Leads.next keptNext look_leads fun again _ _ _ _ _ _ => Leads.pure fun _ _ => trivial

theorem takeOutputs_leads {outputs : Option Response} {newer : Bool} (kept : Kept setting config world)
    (faithful : ∀ response, outputs = some response → Faithful config world.store response) :
    Leads setting config (takeOutputs process outputs newer) log world fun _ _ _ => True := by
  cases outputs with
  | none => exact Leads.pure fun _ _ => trivial
  | some response =>
    cases newer with
    | false => exact Leads.pure fun _ _ => trivial
    | true => exact assign_leads kept (honest_cached (faithful response rfl))

theorem hydrateCandidates_leads (kept : Kept setting config world) :
    Leads setting config (hydrateCandidates process) log world fun _ _ _ => True := by
  refine Protocol.Holds.read fun seen since => ?_
  have keptSeen := Since.kept since kept
  cases found : (latest Candidate.publishedAt seen.candidates).filter Candidate.current with
  | none =>
    exact Leads.pure fun _ _ => trivial
  | some candidate =>
    have member := (latest_spec (Option.filter_eq_some_iff.mp found).1).1
    refine Leads.next keptSeen (outdated_leads keptSeen) fun newer _ next _ after keptNext _ => ?_
    refine takeOutputs_leads keptNext fun response held => ?_
    exact (keptSeen.candidates candidate member response held).later keptSeen.sound (Since.official after)

theorem takeBasis_leads {basis : Cycle} {newer : Bool} (kept : Kept setting config world) :
    Leads setting config (takeBasis process basis newer) log world fun _ _ _ => True := by
  unfold takeBasis
  split
  · refine assign_next kept (fun _ => rfl) (fun _ => .inl rfl) fun _ _ _ _ kept => ?_
    refine assign_next kept (fun _ => rfl) (fun _ => .inl rfl) fun _ _ _ _ kept => ?_
    refine assign_next kept (fun _ => rfl) (fun _ => .inr rfl) fun _ _ _ _ kept => ?_
    exact assign_leads kept (honest_plain (fun _ => rfl) fun _ => .inl rfl)
  · exact Leads.pure fun _ _ => trivial

theorem hydrateUniverse_leads (kept : Kept setting config world) :
    Leads setting config (hydrateUniverse config process) log world fun _ _ _ => True := by
  refine Protocol.Holds.read fun seen since => ?_
  have keptSeen := Since.kept since kept
  split
  · exact Leads.pure fun _ _ => trivial
  · exact Leads.next keptSeen (outdated_leads keptSeen) fun newer _ next _ _ keptNext _ => takeBasis_leads keptNext

theorem clock_leads : Leads setting config clock log world fun _ _ _ => True :=
  fun _ _ => fun _ _ => trivial

theorem hydrate_leads {force : Bool} (kept : Kept setting config world) :
    Leads setting config (hydrate config process force) log world fun _ _ _ => True := by
  unfold hydrate
  split
  · refine Leads.next kept clock_leads fun now _ _ _ _ kept _ => ?_
    refine Leads.next kept look_leads fun checked _ _ _ _ kept _ => ?_
    split
    · exact Leads.pure fun _ _ => trivial
    · refine assign_next kept (fun _ => rfl) (fun _ => .inl rfl) fun _ _ _ _ kept => ?_
      exact Leads.next kept (hydrateCandidates_leads kept) fun _ _ _ _ _ kept _ => hydrateUniverse_leads kept
  · exact Leads.pure fun _ _ => trivial

end Hydration

section Making

theorem currentGeneration_leads : Leads setting config currentGeneration log world fun generation final next =>
    ∃ seen, Since setting config world seen ∧ Since setting config seen next ∧ generation = seen.store.latestSelection ∧
      final = log ++ [.stepped seen seen] :=
  fun seen since => ⟨Protocol.Later.refl seen, fun _ after => ⟨seen, since, after, rfl, rfl⟩⟩

theorem officialRows_leads (kept : Kept setting config world) {generation : Option Generation}
    (stored : ∀ own, generation = some own → own ∈ world.store.generations) :
    Leads setting config (officialRows generation) log world fun rows _ next =>
      (generation = none → rows = []) ∧ ∀ own, generation = some own → ∀ row ∈ rows, Carries config next.store own (item config row) := by
  cases generation with
  | none => exact Leads.pure fun _ _ => ⟨fun _ => rfl, fun _ none => nomatch none⟩
  | some generation =>
    refine Protocol.Holds.read fun seen since => ?_
    have keptSeen := Since.kept since kept
    have member := (later_grows (Since.official since)).generations.subset (stored generation rfl)
    split
    · exact Leads.pure fun _ _ => ⟨(fun none => nomatch none), fun _ _ _ none => nomatch none⟩
    · rename_i cycle found
      refine Protocol.Holds.read fun read after => Leads.pure fun next final => ⟨(fun none => nomatch none), fun own same row held => ?_⟩
      cases same
      have keptRead := Since.kept after keptSeen
      have memberRead := (later_grows (Since.official after)).generations.subset member
      obtain ⟨entry, shown, rfl⟩ := mem_firstRows held
      exact (carries_shown keptRead.sound shown).later keptRead.sound (keptRead.sound.whole generation memberRead) (Since.official final)

theorem candidateResponse_leads (kept : Kept setting config world) {generatedAt : Int} {generation : Option Generation}
    (stored : ∀ own, generation = some own → own ∈ world.store.generations) :
    Leads setting config (candidateResponse config generatedAt generation) log world fun response _ next =>
      Of config next.store generation response := by
  refine Leads.next kept (officialRows_leads kept stored) fun rows _ next _ since keptNext made => Leads.pure fun last final => ?_
  refine ⟨rfl, fun none => ?_, fun own same item among => ?_⟩
  · show rank config rows = []
    rw [made.1 none]
    rfl
  · obtain ⟨row, held, rfl⟩ := mem_rank among
    have member := (later_grows (Since.official since)).generations.subset (stored own same)
    exact (made.2 own same row held).later keptNext.sound (keptNext.sound.whole own member) (Since.official final)

theorem buildMatrix_leads (kept : Kept setting config world) {generatedAt : Int} {generation : Option Generation}
    (stored : ∀ own, generation = some own → own ∈ world.store.generations) :
    Leads setting config (buildMatrix config generatedAt generation) log world fun response _ next =>
      Of config next.store generation response := by
  refine Leads.next kept (officialRows_leads kept stored) fun rows _ next _ since keptNext made => ?_
  refine Protocol.Holds.answer fun answer _ => Leads.pure fun last final => ?_
  refine ⟨rfl, fun none => ?_, fun own same item among => ?_⟩
  · show matrixItems config answer.quotes rows = []
    rw [made.1 none]
    rfl
  · obtain ⟨row, held, rfl⟩ := mem_matrixItems among
    have member := (later_grows (Since.official since)).generations.subset (stored own same)
    exact (made.2 own same row held).later keptNext.sound (keptNext.sound.whole own member) (Since.official final)

end Making

section Serving
variable {seen next : World} {response : Response}

theorem Kept.selected (kept : Kept setting config world) {generation : Generation} (found : world.store.latestSelection = some generation) :
    generation ∈ world.store.generations := by
  rw [kept.sound.head] at found
  exact Official.tip_mem found

theorem Since.stored (since : Since setting config world next) {generation : Generation}
    (member : generation ∈ world.store.generations) : generation ∈ next.store.generations :=
  (later_grows (Since.official since)).generations.subset member

theorem Of.before (made : Of config next.store seen.store.latestSelection response) (kept : Kept setting config seen)
    (since : Since setting config seen next) : Of config seen.store seen.store.latestSelection response := by
  refine ⟨made.stamp, made.empty, fun own same item among => ?_⟩
  obtain ⟨record, found, numbers⟩ := made.carried own same item among
  have whole := kept.sound.whole own (kept.selected same)
  rw [whole.record_final kept.sound (Since.official since)] at found
  exact ⟨record, found, numbers⟩

/-- A response of the generation in force at an instant of the log. -/
def Served (setting : Setting Digest) (config : Config) (world : World) (response : Response) (final : List (Event World Answer))
    (next : World) : Prop :=
  ∃ seen, Since setting config world seen ∧ Since setting config seen next ∧ .stepped seen seen ∈ final ∧
    Of config seen.store seen.store.latestSelection response

theorem currentGeneration_next {rest : Option Generation → Script Response} {good : Response → List (Event World Answer) → World → Prop}
    (kept : Kept setting config world)
    (served : ∀ response final next, Served setting config world response final next → good response final next)
    (after : ∀ seen final next, Since setting config world seen → Since setting config seen next → Kept setting config seen →
      Kept setting config next → (∀ own, seen.store.latestSelection = some own → own ∈ next.store.generations) →
      Leads setting config (rest seen.store.latestSelection) final next fun response _ last =>
        Of config last.store seen.store.latestSelection response) :
    Leads setting config (currentGeneration >>= rest) log world good := by
  refine Leads.next kept currentGeneration_leads fun generation final next _ _ keptNext ⟨seen, since, after', same, logged⟩ => ?_
  subst same
  have keptSeen := Since.kept since kept
  have stored : ∀ own, seen.store.latestSelection = some own → own ∈ next.store.generations := fun own found =>
    Since.stored after' (keptSeen.selected found)
  refine (after seen final next since after' keptSeen keptNext stored).traced.mono fun response last lastWorld _ traced => ?_
  have reached := after'.trans traced.2.2
  refine served response last lastWorld ⟨seen, since, reached, traced.2.1.subset ?_, traced.1.before keptSeen reached⟩
  rw [logged]
  exact List.mem_append_right _ List.mem_cons_self

theorem cached_made (kept : Kept setting config world) {generation : Option Generation}
    (stored : ∀ own, generation = some own → own ∈ world.store.generations) (faithful : Faithful config world.store response)
    (serves : servesGeneration generation response = true) (since : Since setting config world next) :
    Of config next.store generation response :=
  (faithful.later kept.sound (Since.official since)).made (Since.kept since kept).sound
    (fun own same => Since.stored since (stored own same)) serves

theorem cached_leads (kept : Kept setting config world) :
    Leads setting config (look process Screener.cached) log world fun cached _ next =>
      ∀ response, cached = some response → Faithful config next.store response := by
  refine look_leads.mono fun cached _ next _ ⟨held, before, after, same, _⟩ response found => ?_
  have keptHeld := Since.kept before kept
  exact (keptHeld.cached process response (same ▸ found)).later keptHeld.sound (Since.official after)

theorem matrixCached_leads (kept : Kept setting config world) :
    Leads setting config (look process Screener.matrixCached) log world fun cached _ next =>
      ∀ response, cached = some response → Faithful config next.store response := by
  refine look_leads.mono fun cached _ next _ ⟨held, before, after, same, _⟩ response found => ?_
  have keptHeld := Since.kept before kept
  exact (keptHeld.matrixCached process response (same ▸ found)).later keptHeld.sound (Since.official after)

/-- A generation as a request goes on with it. -/
def Resolved (world : World) (generation : Option Generation) : Prop :=
  ∀ own, generation = some own → own ∈ world.store.generations

theorem Resolved.later {generation : Option Generation} (resolved : Resolved world generation) (since : Since setting config world next) :
    Resolved next generation := fun own same => Since.stored since (resolved own same)

theorem Of.after {generation : Option Generation} (made : Of config world.store generation response) (kept : Kept setting config world)
    (resolved : Resolved world generation) (since : Since setting config world next) : Of config next.store generation response := by
  refine ⟨made.stamp, made.empty, fun own same item among => ?_⟩
  exact (made.carried own same item among).later kept.sound (kept.sound.whole own (resolved own same)) (Since.official since)

end Serving

section Requests
variable {response : Response}

theorem screen_leads (kept : Kept setting config world) :
    Leads setting config (screen config process) log world (Served setting config world) := by
  refine Leads.next kept (hydrate_leads kept) fun _ _ first _ since kept _ => ?_
  refine currentGeneration_next kept (fun response final next ⟨seen, before, rest⟩ => ⟨seen, since.trans before, rest⟩)
    fun seen _ second _ _ _ kept resolved => ?_
  refine Leads.next kept (cached_leads kept) fun cached _ third _ since kept faithful => ?_
  have resolved : Resolved third seen.store.latestSelection := Resolved.later resolved since
  split
  · rename_i response found
    obtain ⟨there, serves⟩ := Option.filter_eq_some_iff.mp found
    exact Leads.pure fun last final => cached_made kept resolved (faithful response there) serves final
  · refine Leads.next kept (hydrate_leads kept) fun _ _ fourth _ since kept _ => ?_
    have resolved := resolved.later since
    refine Leads.next kept (cached_leads kept) fun cached _ fifth _ since kept faithful => ?_
    have resolved := resolved.later since
    split
    · rename_i response found
      obtain ⟨there, serves⟩ := Option.filter_eq_some_iff.mp found
      exact Leads.pure fun last final => cached_made kept resolved (faithful response there) serves final
    · refine Leads.next kept clock_leads fun now _ sixth _ since kept _ => ?_
      have resolved := resolved.later since
      refine Leads.next kept (candidateResponse_leads kept resolved) fun response _ seventh _ since kept made => ?_
      have resolved := resolved.later since
      refine Leads.next kept (assign_leads kept (honest_cached (made.faithful resolved))) fun _ _ eighth _ since' _ _ => ?_
      exact Leads.pure fun last final => made.after kept resolved (since'.trans final)

theorem screenCold_leads (kept : Kept setting config world) {rows : List Row} :
    Leads setting config (screenCold config process rows) log world fun _ _ _ => True := by
  unfold screenCold
  split
  · exact Leads.next kept (screen_leads kept) fun _ _ _ _ _ _ _ => Leads.pure fun _ _ => trivial
  · exact Leads.pure fun _ _ => trivial

theorem matrix_leads (kept : Kept setting config world) :
    Leads setting config (matrix config process) log world (Served setting config world) := by
  refine Leads.next kept (hydrate_leads kept) fun _ _ first _ since₁ kept _ => ?_
  refine Leads.next kept look_leads fun rows _ second _ since₂ kept _ => ?_
  refine Leads.next kept (screenCold_leads kept) fun _ _ third _ since₃ kept _ => ?_
  refine currentGeneration_next kept
    (fun response final next ⟨seen, before, rest⟩ => ⟨seen, since₁.trans (since₂.trans (since₃.trans before)), rest⟩)
    fun seen _ fourth _ _ _ kept resolved => ?_
  refine Leads.next kept clock_leads fun now _ fifth _ since kept _ => ?_
  have resolved : Resolved fifth seen.store.latestSelection := Resolved.later resolved since
  refine Leads.next kept (matrixCached_leads kept) fun cached _ sixth _ since kept faithful => ?_
  have resolved := resolved.later since
  refine Leads.next kept look_leads fun expiresAt _ seventh _ since kept' _ => ?_
  have resolved' := resolved.later since
  split
  · rename_i response found
    obtain ⟨there, fresh⟩ := Option.filter_eq_some_iff.mp found
    have serves := (Bool.and_eq_true_iff.mp fresh).2
    exact Leads.pure fun last final => cached_made kept resolved (faithful response there) serves (since.trans final)
  · refine Leads.next kept' (buildMatrix_leads kept' resolved') fun response _ eighth _ since kept made => ?_
    have resolved := resolved'.later since
    refine Leads.next kept (assign_leads kept (honest_matrixCached (made.faithful resolved))) fun _ _ ninth _ since₉ kept₉ _ => ?_
    refine assign_next kept₉ (fun _ => rfl) (fun _ => .inl rfl) fun _ tenth _ since₁₀ _ => ?_
    exact Leads.pure fun last final => made.after kept resolved (since₉.trans (since₁₀.trans final))

theorem request_leads (request : Request) (kept : Kept setting config world) :
    Leads setting config (request.script config) log world (Served setting config world) := by
  cases request with
  | screen process => exact screen_leads kept
  | matrix process => exact matrix_leads kept

end Requests

section Producers

/-- Every universe that a build publishes is one the producers may publish. -/
def Producing (setting : Setting Digest) (config : Config) : Prop :=
  ∀ publishedAt rows, setting.producible (universeCycle config publishedAt rows)

theorem selection_leads {program : Official.Process A} {post : A → List (Event Store Reading) → Store → Prop}
    (verified : (Official.official setting).Holds program (log.map (Event.zoom World.store Answer.reading)) world.store post) :
    Leads setting config (program.zoom World.store (fun store world => { world with store }) Answer.reading) log world fun _ _ _ => True :=
  (Protocol.Holds.zoom (serving_part setting config) verified).mono fun _ _ _ _ _ => trivial

theorem persistUniverse_leads (producing : Producing setting config) (kept : Kept setting config world) :
    Leads setting config (persistUniverse config setting.calendars process) log world fun _ _ _ => True := by
  refine Leads.next kept clock_leads fun publishedAt _ _ _ _ kept _ => ?_
  refine assign_next kept (fun _ => rfl) (fun _ => .inl rfl) fun _ _ _ _ kept => ?_
  refine Leads.next kept look_leads fun rows final next _ _ kept _ => ?_
  refine Leads.next kept (selection_leads (saveAnalysisSnapshot_spec kept.sound (producing publishedAt rows))) ?_
  exact fun _ _ _ _ _ _ _ => Leads.pure fun _ _ => trivial

theorem replaceRows_leads (kept : Kept setting config world) {rows : List Row} {generatedAt : Int} :
    Leads setting config (replaceRows process rows generatedAt) log world fun _ _ _ => True := by
  refine assign_next kept (fun _ => rfl) (fun _ => .inl rfl) fun _ _ _ _ kept => ?_
  refine assign_next kept (fun _ => rfl) (fun _ => .inl rfl) fun _ _ _ _ kept => ?_
  refine assign_next kept (fun _ => rfl) (fun _ => .inr rfl) fun _ _ _ _ kept => ?_
  exact assign_leads kept (honest_plain (fun _ => rfl) fun _ => .inl rfl)

theorem persistCandidates_leads (kept : Kept setting config world) {response : Response}
    (faithful : Faithful config world.store response) :
    Leads setting config (persistCandidates response) log world fun _ _ _ => True := by
  intro next since
  have faithful : Faithful config next.store response := faithful.later kept.sound (Since.official since)
  refine ⟨Relation.ReflTransGen.single ⟨Protocol.Later.refl _, fun keptNext => ?_⟩, fun _ _ => trivial⟩
  refine ⟨keptNext.sound, keptNext.cached, keptNext.matrixCached, fun candidate member other held => ?_⟩
  rcases List.mem_append.mp member with before | new
  · exact keptNext.candidates candidate before other held
  · cases List.mem_singleton.mp new
    cases held
    exact faithful

theorem respond_leads (kept : Kept setting config world) {generatedAt : Int} {rest : Response → Script B}
    (after : ∀ response final next, Kept setting config next → Faithful config next.store response →
      Leads setting config (rest response) final next fun _ _ _ => True) :
    Leads setting config (currentGeneration >>= fun generation => candidateResponse config generatedAt generation >>= rest) log world
      fun _ _ _ => True := by
  refine Leads.next kept currentGeneration_leads fun generation _ next _ _ keptNext ⟨seen, before, after', same, _⟩ => ?_
  have resolved : Resolved next generation := by
    subst same
    exact fun own found => Since.stored after' ((Since.kept before kept).selected found)
  refine Leads.next keptNext (candidateResponse_leads keptNext resolved) fun response final last _ since keptLast made => ?_
  exact after response final last keptLast (made.faithful (resolved.later since))

theorem build_leads (producing : Producing setting config) (kept : Kept setting config world) :
    Leads setting config (build config setting.calendars process) log world fun _ _ _ => True := by
  refine Leads.next kept clock_leads fun generatedAt _ _ _ _ kept _ => ?_
  refine Protocol.Holds.answer fun answer _ => ?_
  refine Leads.next kept (replaceRows_leads kept) fun _ _ _ _ _ kept _ => ?_
  refine Leads.next kept (persistUniverse_leads producing kept) fun _ _ _ _ _ kept _ => ?_
  refine respond_leads kept fun response _ next kept faithful => ?_
  refine Leads.next kept (persistCandidates_leads kept faithful) fun _ _ _ _ since kept' _ => ?_
  refine Leads.next kept' (assign_leads kept' (honest_cached (faithful.later kept.sound (Since.official since)))) fun _ _ _ _ _ _ _ => ?_
  exact Leads.pure fun _ _ => trivial

theorem buildCold_leads (producing : Producing setting config) (kept : Kept setting config world) {rows : List Row} :
    Leads setting config (buildCold config setting.calendars process rows) log world fun _ _ _ => True := by
  unfold buildCold
  split
  · exact Leads.next kept (build_leads producing kept) fun _ _ _ _ _ _ _ => Leads.pure fun _ _ => trivial
  · exact Leads.pure fun _ _ => trivial

theorem refreshSymbols_leads (producing : Producing setting config) (kept : Kept setting config world) :
    Leads setting config (refreshSymbols config setting.calendars process) log world fun _ _ _ => True := by
  refine Leads.next kept (hydrate_leads kept) fun _ _ _ _ _ kept _ => ?_
  refine Leads.next kept look_leads fun rows _ _ _ _ kept _ => ?_
  refine Leads.next kept (buildCold_leads producing kept) fun _ _ _ _ _ kept _ => ?_
  refine Protocol.Holds.answer fun answer _ => ?_
  split
  · refine Leads.next kept look_leads fun rows _ _ _ _ kept _ => ?_
    refine Leads.next kept clock_leads fun generatedAt _ _ _ _ kept _ => ?_
    refine Leads.next kept (replaceRows_leads kept) fun _ _ _ _ _ kept _ => ?_
    refine Leads.next kept (persistUniverse_leads producing kept) fun _ _ _ _ _ kept _ => ?_
    refine respond_leads kept fun response _ next kept faithful => ?_
    refine Leads.next kept (assign_leads kept (honest_cached faithful)) fun _ _ _ _ since kept' _ => ?_
    exact persistCandidates_leads kept' (faithful.later kept.sound (Since.official since))
  · exact Leads.pure fun _ _ => trivial

end Producers

section Calls

/-- The second response is of no earlier generation of the chain than the first. -/
def NotOlder (first second : Response) : Prop :=
  ∀ id, first.officialGenerationId = some id → ∃ later, second.officialGenerationId = some later ∧ id ≤ later

def InForce (config : Config) (log : List (Event World Answer)) (response : Response) : Prop :=
  ∃ seen, .stepped seen seen ∈ log ∧ Of config seen.store seen.store.latestSelection response

def Answered (config : Config) (log : List (Event World Answer)) : Outcome → Prop
  | .response response => InForce config log response
  | .responses first second => InForce config log first ∧ InForce config log second ∧ NotOlder first second
  | .quiet => True

theorem notOlder_of {first second : World} {one other : Response} (kept : Kept setting config first)
    (since : Since setting config first second) (before : Of config first.store first.store.latestSelection one)
    (after : Of config second.store second.store.latestSelection other) : NotOlder one other := by
  intro id stamp
  have keptSecond := Since.kept since kept
  rw [before.stamp] at stamp
  obtain ⟨generation, found, rfl⟩ := Option.map_eq_some_iff.mp stamp
  obtain ⟨place, there⟩ := List.mem_iff_getElem?.mp (Since.stored since (kept.selected found))
  have id := keptSecond.sound.id_of_place there
  have bound := (List.getElem?_eq_some_iff.mp there).1
  have last : second.store.generations.length - 1 < second.store.generations.length := by omega
  have tip : second.store.latestSelection = some second.store.generations[second.store.generations.length - 1] := by
    rw [keptSecond.sound.head, Store.tip, List.getLast?_eq_getElem?, List.getElem?_eq_getElem last]
  have lastId := keptSecond.sound.id_of_place (List.getElem?_eq_getElem last)
  refine ⟨_, by rw [after.stamp, tip, Option.map_some], ?_⟩
  omega

theorem kept_initial : Kept setting config World.initial where
  sound := Official.sound_empty setting
  cached _ _ none := nomatch none
  matrixCached _ _ none := nomatch none
  candidates _ none := nomatch none

variable [DecidableEq Digest]

theorem Call.answered (producing : Producing setting config) (call : Call setting) (kept : Kept setting config world) :
    Leads setting config (call.body config) [] world fun outcome log _ => Answered config log outcome := by
  cases call with
  | request asked =>
    refine Leads.next kept (request_leads asked kept) fun response final next _ _ _ ⟨seen, _, _, logged, made⟩ => ?_
    exact Leads.pure fun _ _ => ⟨seen, logged, made⟩
  | requests first second =>
    refine Leads.next kept (request_leads first kept) fun one final next _ _ keptNext ⟨seen, since, until', logged, made⟩ => ?_
    refine Leads.next keptNext (request_leads second keptNext) fun other last _ longer _ _ ⟨seen', since', _, logged', made'⟩ => ?_
    refine Leads.pure fun _ _ => ⟨⟨seen, longer.subset logged, made⟩, ⟨seen', logged', made'⟩, ?_⟩
    exact notOlder_of (Since.kept since kept) (until'.trans since') made made'
  | build process =>
    exact Leads.next kept (build_leads producing kept) fun _ _ _ _ _ _ _ => Leads.pure fun _ _ => trivial
  | refreshSymbols process =>
    exact Leads.next kept (refreshSymbols_leads producing kept) fun _ _ _ _ _ _ _ => Leads.pure fun _ _ => trivial
  | hydrate process force =>
    exact Leads.next kept (hydrate_leads kept) fun _ _ _ _ _ _ _ => Leads.pure fun _ _ => trivial
  | official call =>
    refine Leads.next kept (selection_leads (call.accounted kept.sound)) ?_
    exact fun _ _ _ _ _ _ _ => Leads.pure fun _ _ => trivial

/-- Some calls of any processes, from a new installation on. -/
structure History (setting : Setting Digest) (config : Config) where
  pool : Pool (Call setting) World Answer Outcome
  run : Pool.Run (Call.body config) (serving setting config).allowed ⟨World.initial, []⟩ pool
  producing : Producing setting config

/-- Every request that is answered is answered so. -/
def History.Consistent (history : History setting config) : Prop :=
  ∀ call outcome log, ⟨call, .done outcome, log⟩ ∈ history.pool.running → Answered config log outcome

/-- Every request is answered with one generation that was in force meanwhile, as its records
serve it, and the next request of a client with no older one. -/
theorem responses_in_force (history : History setting config) : history.Consistent := by
  intro call outcome log finished
  exact Pool.run_finished (fun call _ kept => call.answered history.producing kept) history.run kept_initial finished

end Calls
end C3po.Screen
