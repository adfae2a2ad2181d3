import C3po.Fundamentals.Cache

/-! What every call is served, in every interleaving. -/

set_option autoImplicit false

namespace C3po.Fundamentals
open C3po.Library

variable {Payload : Type}

/-- An ingestion run of the call for some symbols. -/
def Requested (log : List (Event (World Payload) (Answer Payload))) (missing : List String) : Prop :=
  ∃ before after, .stepped before after ∈ log ∧ after.ingestion = before.ingestion ++ [missing]

def Carried (log : List (Event (World Payload) (Answer Payload))) (symbol : String) : Prop :=
  ∃ payload, .answered (some payload) ∈ log ∧ symbol ∈ payload.map Prod.fst

/-- What had arrived when the call began. -/
def World.known (world : World Payload) : List String := world.arrivals.map Prod.fst

/-- A call on its way: it began in a world, and what it asked for of what was known then was answered, but
for what it is still owed. -/
structure Going (began : World Payload) (owed : List String) (log : List (Event (World Payload) (Answer Payload)))
    (world : World Payload) : Prop where
  head : log.head? = some (.stepped began began)
  sound : Sound world
  past : began.clock ≤ world.clock
  answered : world.strayed = false → ∀ missing, Requested log missing → ∀ symbol ∈ missing, symbol ∈ began.known →
    Carried log symbol ∨ symbol ∈ owed

variable {began world next : World Payload} {owed : List String} {log : List (Event (World Payload) (Answer Payload))}

theorem Carried.snoc {symbol : String} (carried : Carried log symbol) (event : Event (World Payload) (Answer Payload)) :
    Carried (log ++ [event]) symbol := by
  obtain ⟨payload, member, known⟩ := carried
  exact ⟨payload, List.mem_append_left _ member, known⟩

theorem Requested.snoc {missing : List String} {before after : World Payload}
    (requested : Requested (log ++ [.stepped before after]) missing) :
    Requested log missing ∨ after.ingestion = before.ingestion ++ [missing] := by
  obtain ⟨first, second, member, runs⟩ := requested
  rcases List.mem_append.mp member with earlier | new
  · exact .inl ⟨first, second, earlier, runs⟩
  · cases List.mem_singleton.mp new
    exact .inr runs

theorem Requested.snoc_answered {missing : List String} {answer : Answer Payload}
    (requested : Requested (log ++ [.answered answer]) missing) : Requested log missing := by
  obtain ⟨first, second, member, runs⟩ := requested
  rcases List.mem_append.mp member with earlier | new
  · exact ⟨first, second, earlier, runs⟩
  · cases List.mem_singleton.mp new

theorem no_run {ingestion : List (List String)} {missing : List String} (runs : ingestion = ingestion ++ [missing]) : False := by
  have longer := congrArg List.length runs
  rw [List.length_append, List.length_singleton] at longer
  omega

theorem Going.later (going : Going began owed log world) (later : (cacheRules Payload).Later world next) : Going began owed log next := by
  refine ⟨going.head, later.keeps going.sound, going.past.trans (later_clock going.sound later), fun steady => going.answered ?_⟩
  cases strayed : world.strayed with
  | false => rfl
  | true =>
    rw [later_strayed going.sound later strayed] at steady
    cases steady

theorem head_snoc (head : log.head? = some (.stepped began began)) (event : Event (World Payload) (Answer Payload)) :
    (log ++ [event]).head? = some (.stepped began began) := by
  cases log with
  | nil => cases head
  | cons first rest => exact head

theorem Going.step (going : Going began owed log world) (moves : Moves world next) (same : next.ingestion = world.ingestion) :
    (cacheRules Payload).Later world next ∧ Going began owed (log ++ [.stepped world next]) next := by
  have later : (cacheRules Payload).Later world next := Relation.ReflTransGen.single moves
  have kept := going.later later
  refine ⟨later, head_snoc kept.head _, kept.sound, kept.past, fun steady missing requested symbol member known => ?_⟩
  rcases requested.snoc with earlier | runs
  · exact (kept.answered steady missing earlier symbol member known).imp (·.snoc _) id
  · rw [same] at runs
    exact (no_run runs).elim

theorem Going.read (going : Going began owed log world) : Going began owed (log ++ [.stepped world world]) world := by
  refine ⟨head_snoc going.head _, going.sound, going.past, fun steady missing requested symbol member known => ?_⟩
  rcases requested.snoc with earlier | runs
  · exact (going.answered steady missing earlier symbol member known).imp (·.snoc _) id
  · exact (no_run runs).elim

section Scripts

def Goes (began : World Payload) (owed : List String) (origin : World Payload) (log : List (Event (World Payload) (Answer Payload)))
    (world : World Payload) : Prop := Going began owed log world ∧ (cacheRules Payload).Later origin world

theorem Goes.later {origin : World Payload} (goes : Goes began owed origin log world) (later : (cacheRules Payload).Later world next) :
    Goes began owed origin log next := ⟨goes.1.later later, goes.2.trans later⟩

theorem Goes.refl (going : Going began owed log world) : Goes began owed world log world := ⟨going, Protocol.Later.refl world⟩

theorem Goes.trans {first second : World Payload} (later : (cacheRules Payload).Later first second)
    (goes : Goes began owed second log world) : Goes began owed first log world := ⟨goes.1, later.trans goes.2⟩

theorem read_holds {A : Type} (query : World Payload → A) (going : Going began owed log world)
    {post : A → List (Event (World Payload) (Answer Payload)) → World Payload → Prop}
    (after : ∀ other last, (cacheRules Payload).Later world other → Goes began owed other (log ++ [.stepped other other]) last →
      post (query other) (log ++ [.stepped other other]) last) :
    (cacheRules Payload).Holds (Program.read query) log world post := by
  intro other later
  refine ⟨Protocol.Later.refl other, fun last further => ?_⟩
  exact after other last later ((Goes.refl (going.later later).read).later further)

theorem write_holds {A : Type} (effect : World Payload → World Payload) (answer : World Payload → A)
    (going : Going began owed log world) (moves : ∀ other, (cacheRules Payload).Later world other → Sound other → Moves other (effect other))
    (same : ∀ other, (effect other).ingestion = other.ingestion)
    {post : A → List (Event (World Payload) (Answer Payload)) → World Payload → Prop}
    (after : ∀ other last, (cacheRules Payload).Later world other →
      Goes began owed (effect other) (log ++ [.stepped other (effect other)]) last →
      post (answer other) (log ++ [.stepped other (effect other)]) last) :
    (cacheRules Payload).Holds (Program.write effect answer) log world post := by
  intro other later
  have kept := going.later later
  obtain ⟨moved, gone⟩ := kept.step (moves other later kept.sound) (same other)
  exact ⟨moved, fun last further => after other last later ((Goes.refl gone).later further)⟩

theorem lookup_holds (symbol : String) (going : Going began owed log world) :
    (cacheRules Payload).Holds (lookup symbol) log world fun _ log next => Goes began owed world log next := by
  refine Protocol.Holds.bind (read_holds _ going fun other last later goes => ?_)
  exact read_holds _ goes.1 fun third final further reached => reached.trans (later.trans (goes.2.trans further))

theorem missingSymbols_holds (symbols : List String) (going : Going began owed log world) :
    (cacheRules Payload).Holds (missingSymbols symbols) log world fun _ log next => Goes began owed world log next := by
  refine Protocol.Holds.foldlM (fun _ log next => Goes began owed world log next) ?_ ?_ (Goes.refl going)
  · intro missing symbol _ log store goes
    refine Protocol.Holds.bind ((lookup_holds symbol goes.1).mono fun entry log next _ reached => ?_)
    exact Protocol.Holds.pure fun last later => (reached.trans goes.2).later later
  · exact fun _ _ _ _ goes later => goes.later later

theorem cacheIsFresh_holds (going : Going began owed log world) :
    (cacheRules Payload).Holds (cacheIsFresh began.clock) log world fun fresh log next =>
      Goes began owed world log next ∧ (fresh = true → Young began.clock next.cache next) := by
  refine Protocol.Holds.bind (read_holds _ going fun other last later goes => ?_)
  cases held : other.expiresAt with
  | none =>
    refine Protocol.Holds.pure fun final further => ⟨(goes.trans later).later further, fun fresh => ?_⟩
    cases fresh
  | some expiry =>
    refine read_holds _ goes.1 fun third final further reached => ?_
    refine ⟨reached.trans (later.trans (goes.2.trans further)), fun fresh => ?_⟩
    have kept := goes.1.later further
    refine later_young_cache kept.sound reached.2 kept.past fun steady symbol entry found => ?_
    cases set : third.expiresAt with
    | none =>
      rw [set] at fresh
      cases fresh
    | some current =>
      rw [set] at fresh
      have before : began.clock < current := of_decide_eq_true fresh
      exact before.le.trans (kept.sound.timely steady symbol entry current found set)

theorem dropStale_holds (going : Going began owed log world) :
    (cacheRules Payload).Holds (dropStale began.clock) log world fun _ log next =>
      Goes began owed world log next ∧ Young began.clock next.cache next := by
  refine Protocol.Holds.bind ((cacheIsFresh_holds going).mono fun fresh log next _ reached => ?_)
  obtain ⟨goes, young⟩ := reached
  cases fresh with
  | true =>
    refine Protocol.Holds.pure fun last later => ⟨goes.later later, ?_⟩
    exact later_young_cache goes.1.sound later goes.1.past (young rfl)
  | false =>
    refine write_holds _ _ goes.1 (fun _ _ sound => dropped_moves sound) (fun _ => rfl) fun other last later reached => ?_
    have kept := goes.1.later later
    have moved : (cacheRules Payload).Later other other.dropped := Relation.ReflTransGen.single (dropped_moves kept.sound)
    refine ⟨reached.trans (goes.2.trans (later.trans moved)), ?_⟩
    refine later_young_cache (moved.keeps kept.sound) reached.2 kept.past fun _ symbol entry found => ?_
    change (other.dicts other.allocated).get? symbol = some entry at found
    rw [kept.sound.unmade _ (Nat.le_refl _)] at found
    cases found

theorem install_holds (received : Int) {payload : List (String × Payload)} (going : Going began owed log world)
    (arrived : ∀ item ∈ payload, (item.1, item.2, received) ∈ world.arrivals) :
    (cacheRules Payload).Holds (install received payload) log world fun _ log next => Goes began owed world log next := by
  induction payload generalizing log world with
  | nil => exact Protocol.Holds.pure fun last later => (Goes.refl going).later later
  | cons item rest ih =>
    refine Protocol.Holds.bind (read_holds _ going fun other last later goes => ?_)
    have made : other.cache < last.allocated := later_made (later.keeps going.sound) goes.2 (later.keeps going.sound).made
    have still : ∀ item' ∈ item :: rest, (item'.1, item'.2, received) ∈ last.arrivals := fun item' member =>
      later_arrivals going.sound (later.trans goes.2) (arrived item' member)
    refine Protocol.Holds.bind (write_holds (World.installed other.cache item.1 (item.2, received)) _ goes.1
      (fun third further sound => ?_) (fun _ => rfl) fun third final further reached => ?_)
    · exact installed_moves sound (later_made goes.1.sound further made)
        (later_arrivals goes.1.sound further (still item List.mem_cons_self))
    · have moved := Relation.ReflTransGen.single (installed_moves (goes.1.later further).sound
        (later_made goes.1.sound further made) (later_arrivals goes.1.sound further (still item List.mem_cons_self)))
      have onward := later.trans (goes.2.trans (further.trans (Protocol.Later.trans moved reached.2)))
      refine (ih reached.1 fun other member => ?_).mono fun _ log next _ ends => ends.trans onward
      exact later_arrivals going.sound onward (arrived other (List.mem_cons_of_mem _ member))

theorem Going.settle (going : Going began owed log world)
    (settled : world.strayed = false → ∀ symbol ∈ owed, symbol ∈ began.known → Carried log symbol) : Going began [] log world := by
  refine ⟨going.head, going.sound, going.past, fun steady missing requested symbol member known => .inl ?_⟩
  rcases going.answered steady missing requested symbol member known with carried | owes
  · exact carried
  · exact settled steady symbol owes known

theorem steady_before (sound : Sound world) (later : (cacheRules Payload).Later world next) (steady : next.strayed = false) :
    world.strayed = false := by
  cases strayed : world.strayed with
  | false => rfl
  | true =>
    rw [later_strayed sound later strayed] at steady
    cases steady

theorem Going.begin {missing : List String} (going : Going began [] log world) :
    (cacheRules Payload).Later world (world.begun missing) ∧
      Going began missing (log ++ [.stepped world (world.begun missing)]) (world.begun missing) := by
  have later : (cacheRules Payload).Later world (world.begun missing) := Relation.ReflTransGen.single (begun_moves going.sound missing)
  refine ⟨later, head_snoc going.head _, later.keeps going.sound, going.past, fun steady other requested symbol member known => ?_⟩
  rcases requested.snoc with earlier | runs
  · rcases going.answered steady other earlier symbol member known with carried | none
    · exact .inl (carried.snoc _)
    · cases none
  · have same : [other] = [missing] := (List.append_cancel_left runs).symm
    rw [List.singleton_inj.mp same] at member
    exact .inr member

theorem Going.answer (going : Going began owed log world) (answer : Answer Payload) :
    Going began owed (log ++ [.answered answer]) world := by
  refine ⟨head_snoc going.head _, going.sound, going.past, fun steady missing requested symbol member known => ?_⟩
  exact (going.answered steady missing requested.snoc_answered symbol member known).imp (·.snoc _) id

theorem fetch_holds {missing : List String} (going : Going began [] log world) :
    (cacheRules Payload).Holds (fetch began.clock began.known missing) log world fun _ log next => Goes began [] world log next := by
  refine Protocol.Holds.write fun other later => ?_
  obtain ⟨begins, owes⟩ := @Going.begin _ _ _ _ missing (going.later later)
  refine ⟨begins, Protocol.Holds.answer fun answer _ => ?_⟩
  have asked := owes.answer answer
  cases answer with
  | none =>
    refine write_holds (World.unanswered began.known missing) _ asked (fun _ _ sound => unanswered_moves sound _ _) (fun _ => rfl)
      fun third last further reached => ?_
    have sound := (asked.later further).sound
    have moved : (cacheRules Payload).Later third (third.unanswered began.known missing) :=
      Relation.ReflTransGen.single (unanswered_moves sound _ _)
    refine ⟨reached.1.settle fun steady symbol member known => ?_, later.trans (begins.trans (further.trans (moved.trans reached.2)))⟩
    have none := (Bool.or_eq_false_iff.mp (steady_before (moved.keeps sound) reached.2 steady)).2
    exact absurd (decide_eq_true known) (List.any_eq_false.mp none symbol member)
  | some payload =>
    refine Protocol.Holds.bind (write_holds (World.arrived began.known missing payload) _ asked
      (fun _ _ sound => arrived_moves sound _ _ _) (fun _ => rfl) fun third last further reached => ?_)
    have sound := (asked.later further).sound
    have moved : (cacheRules Payload).Later third (third.arrived began.known missing payload) :=
      Relation.ReflTransGen.single (arrived_moves sound _ _ _)
    have settled : Going began [] _ last := reached.1.settle fun steady symbol member known => by
      have none := (Bool.or_eq_false_iff.mp (steady_before (moved.keeps sound) reached.2 steady)).2
      refine ⟨payload, List.mem_append_left _ (List.mem_append_right _ (List.mem_singleton_self _)), ?_⟩
      have carried := List.any_eq_false.mp none symbol member
      simpa [known] using carried
    refine Protocol.Holds.bind ((install_holds third.clock settled fun item member => ?_).mono fun _ log next _ ends => ?_)
    · refine later_arrivals (moved.keeps sound) reached.2 (List.mem_append_right _ (List.mem_map.mpr ⟨item, member, rfl⟩))
    · refine write_holds (World.expiring began.clock) _ ends.1 (fun _ _ sound => expiring_moves sound _) (fun _ => rfl)
        fun fourth final onward goes => ?_
      have set : (cacheRules Payload).Later fourth (fourth.expiring began.clock) :=
        Relation.ReflTransGen.single (expiring_moves (ends.1.later onward).sound _)
      exact goes.trans (later.trans (begins.trans (further.trans (moved.trans (reached.2.trans (ends.2.trans (onward.trans set)))))))

theorem readEntries_holds {id : ℕ} (symbols : List String) (going : Going began owed log world) (young : Young began.clock id world) :
    (cacheRules Payload).Holds (readEntries id symbols) log world fun entries log next => Goes began owed world log next ∧
      ∀ arrival ∈ entries, arrival ∈ next.arrivals ∧ arrival.1 ∈ symbols ∧
        (next.strayed = false → began.clock ≤ arrival.2.2 + auxiliaryCacheHours) := by
  refine Protocol.Holds.foldlM (fun entries log next => Goes began owed world log next ∧
    ∀ arrival ∈ entries, arrival ∈ next.arrivals ∧ arrival.1 ∈ symbols ∧
      (next.strayed = false → began.clock ≤ arrival.2.2 + auxiliaryCacheHours)) ?_ ?_ ⟨Goes.refl going, nofun⟩
  · intro entries symbol member log store held
    obtain ⟨goes, sound⟩ := held
    refine Protocol.Holds.bind (read_holds _ goes.1 fun other last later reached => ?_)
    have kept := goes.1.later later
    have still : ∀ arrival ∈ entries, arrival ∈ last.arrivals ∧ arrival.1 ∈ symbols ∧
        (last.strayed = false → began.clock ≤ arrival.2.2 + auxiliaryCacheHours) := by
      intro arrival known
      obtain ⟨arrived, listed, bounded⟩ := sound arrival known
      refine ⟨later_arrivals goes.1.sound (later.trans reached.2) arrived, listed, fun steady => bounded ?_⟩
      exact steady_before goes.1.sound (later.trans reached.2) steady
    refine Protocol.Holds.pure fun final further => ?_
    have arrives : ∀ arrival ∈ last.arrivals, arrival ∈ final.arrivals := fun _ member =>
      later_arrivals reached.1.sound further member
    refine ⟨(reached.trans (goes.2.trans later)).later further, fun arrival known => ?_⟩
    have known : arrival ∈ entries ∨ ∃ entry, (other.dicts id).get? symbol = some entry ∧ arrival = (symbol, entry) := by
      rcases List.mem_append.mp known with earlier | new
      · exact .inl earlier
      · obtain ⟨entry, found, same⟩ := Option.map_eq_some_iff.mp (Option.mem_toList.mp new)
        exact .inr ⟨entry, found, same.symm⟩
    rcases known with earlier | ⟨entry, found, rfl⟩
    · obtain ⟨arrived, listed, bounded⟩ := still arrival earlier
      exact ⟨arrives arrival arrived, listed, fun steady => bounded (steady_before reached.1.sound further steady)⟩
    · refine ⟨arrives _ (later_arrivals kept.sound reached.2 (kept.sound.arrived id symbol entry found)), member, fun steady => ?_⟩
      have before := steady_before kept.sound (reached.2.trans further) steady
      exact later_young going.sound (goes.2.trans later) going.past young before symbol entry found
  · intro entries log store next held later
    refine ⟨held.1.later later, fun arrival known => ?_⟩
    obtain ⟨arrived, listed, bounded⟩ := held.2 arrival known
    refine ⟨later_arrivals held.1.1.sound later arrived, listed, fun steady => bounded ?_⟩
    exact steady_before held.1.1.sound later steady

theorem popSymbols_holds (symbols : List String) (sound : Sound world) {post : Unit → List (Event (World Payload) (Answer Payload)) → World Payload → Prop}
    (any : ∀ log next, post () log next) : (cacheRules Payload).Holds (popSymbols symbols) log world post := by
  induction symbols generalizing log world with
  | nil => exact Protocol.Holds.pure fun next _ => any log next
  | cons symbol rest ih =>
    refine Protocol.Holds.read fun other later => Protocol.Holds.write fun third further => ?_
    have kept := further.keeps (later.keeps sound)
    have moves := popped_moves kept other.cache symbol
    exact ⟨Relation.ReflTransGen.single moves, ih moves.sound⟩

end Scripts

/-- What a finished call was served. -/
structure Served (symbols : List String) (log : List (Event (World Payload) (Answer Payload))) (entries : List (Arrival Payload))
    (world : World Payload) : Prop where
  /-- Each receipt is the instant at which the answer with that payload arrived. -/
  truthful : ∀ arrival ∈ entries, arrival ∈ world.arrivals ∧ arrival.1 ∈ symbols
  /-- No payload is older than the hours of the cache when the call begins. -/
  bounded : ∀ before after, log.head? = some (.stepped before after) →
    ∀ arrival ∈ entries, before.clock ≤ arrival.2.2 + auxiliaryCacheHours
  /-- What was received before is not lost to a fetch that failed. -/
  survives : ∀ before after, log.head? = some (.stepped before after) → ∀ symbol ∈ symbols, symbol ∈ before.known →
    symbol ∉ entries.map Prod.fst → ∀ missing, Requested log missing → symbol ∈ missing → Carried log symbol

/-- The receipts are true in every run; the rest is kept where no step strayed. -/
def ServedSo (upper : String → String) (call : Call) (entries : List (Arrival Payload))
    (log : List (Event (World Payload) (Answer Payload))) (world : World Payload) : Prop :=
  match call with
  | .fundamentals symbols => (∀ arrival ∈ entries, arrival ∈ world.arrivals) ∧
      (world.strayed = false → Served (cleanSymbols upper symbols) log entries world)
  | _ => True

theorem fundamentals_holds (symbols : List String) (sound : Sound world) :
    (cacheRules Payload).Holds (fundamentalsWithReceipts symbols) [] world fun entries log next =>
      (∀ arrival ∈ entries, arrival ∈ next.arrivals) ∧ (next.strayed = false → Served symbols log entries next) := by
  refine Protocol.Holds.read fun other later => ?_
  have kept : Sound other := later.keeps sound
  have going : Going other [] [.stepped other other] other := by
    refine ⟨rfl, kept, Int.le_refl _, fun _ missing requested => ?_⟩
    obtain ⟨before, after, member, runs⟩ := requested
    cases List.mem_singleton.mp member
    exact (no_run runs).elim
  refine Protocol.Holds.bind ((dropStale_holds going).mono fun _ log first _ reached => ?_)
  obtain ⟨goes, young⟩ := reached
  refine Protocol.Holds.bind ((missingSymbols_holds symbols goes.1).mono fun missing log second _ onward => ?_)
  have youngSecond := later_young_cache goes.1.sound onward.2 goes.1.past young
  have fetched : (cacheRules Payload).Holds (fetchMissing other.clock other.known missing) log second
      fun _ log next => Goes other [] second log next := by
    unfold fetchMissing
    split
    · exact Protocol.Holds.pure fun last later => (Goes.refl onward.1).later later
    · exact fetch_holds onward.1
  refine Protocol.Holds.bind (fetched.mono fun _ log third _ ends => ?_)
  have youngThird := later_young_cache onward.1.sound ends.2 onward.1.past youngSecond
  refine Protocol.Holds.read fun fourth further => ?_
  have last := (ends.1.later further).read
  have youngFourth := later_young_cache ends.1.sound further ends.1.past youngThird
  refine (readEntries_holds symbols last youngFourth).mono fun entries log final _ result => ?_
  obtain ⟨finished, each⟩ := result
  refine ⟨fun arrival member => (each arrival member).1, fun steady => ⟨fun arrival member => ?_, ?_, ?_⟩⟩
  · exact ⟨(each arrival member).1, (each arrival member).2.1⟩
  · intro before after head arrival member
    rw [finished.1.head] at head
    cases head
    exact (each arrival member).2.2 steady
  · intro before after head symbol _ known _ missing requested member
    rw [finished.1.head] at head
    cases head
    exact (finished.1.answered steady missing requested symbol member known).resolve_right (List.not_mem_nil)

theorem serve_holds (upper : String → String) (call : Call) (sound : Sound world) :
    (cacheRules Payload).Holds (serve upper call) [] world fun entries log next => ServedSo upper call entries log next := by
  cases call with
  | fundamentals symbols => exact fundamentals_holds (cleanSymbols upper symbols) sound
  | refresh symbols => exact Protocol.Holds.bind (popSymbols_holds symbols sound fun _ _ => Protocol.Holds.pure fun _ _ => trivial)
  | wait microseconds =>
    exact Protocol.Holds.write fun other later =>
      ⟨Relation.ReflTransGen.single (waited_moves (later.keeps sound) microseconds), Protocol.Holds.pure fun _ _ => trivial⟩

/-- In every interleaving every receipt is that of the answer with its payload; and where no fetch lost what
it asked for again, no answer was kept too long and no expiry was set past what the cache held, no payload is
served past its hours and none received before is lost to a fetch that failed. -/
theorem fundamentals_served {upper : String → String} {clock : Int} {pool : Pool Call (World Payload) (Answer Payload) (List (Arrival Payload))}
    (run : Pool.Run (serve upper) (fun _ _ => True) ⟨World.initial clock, []⟩ pool) {call : Call} {entries : List (Arrival Payload)}
    {log : List (Event (World Payload) (Answer Payload))} (finished : ⟨call, .done entries, log⟩ ∈ pool.running) :
    ServedSo upper call entries log pool.store := by
  have verified : ∀ call world, (cacheRules Payload).keeps world →
      (cacheRules Payload).Holds (serve upper call) [] world (ServedSo upper call) := fun call _ sound => serve_holds upper call sound
  exact Pool.run_finished verified run (sound_initial clock) finished

section Lost

private def alone (call : Call) (answer : Answer Unit) (world : World Unit) :=
  Program.execute answer (serve id call) [] world

private def received := alone (.fundamentals ["PETR4"]) (some [("PETR4", ())]) (World.initial 0)

private def waited := alone (.wait 64800000000) none received.2.2

private def failed := alone (.fundamentals ["PETR4"]) none waited.2.2

private theorem runs_alone (call : Call) (answer : Answer Unit) (world : World Unit)
    (running : List (Running Call (World Unit) (Answer Unit) (List (Arrival Unit)))) :
    Pool.Run (serve id) (fun _ _ => True) ⟨world, running⟩
      ⟨(alone call answer world).2.2, running ++ [⟨call, .done (alone call answer world).1, (alone call answer world).2.1⟩]⟩ :=
  .head (.start _ call) (Program.run_execute (fun _ _ => trivial) _ fun _ none => nomatch none)

theorem fundamentals_served_received : ∃ (world : World Unit) (log : List (Event (World Unit) (Answer Unit))),
    world.strayed = false ∧ ServedSo id (.fundamentals ["PETR4"]) [("PETR4", (), 0)] log world := by
  have entries : received.1 = [("PETR4", (), 0)] := by decide +kernel
  have steady : received.2.2.strayed = false := by decide +kernel
  have run := runs_alone (.fundamentals ["PETR4"]) (some [("PETR4", ())]) (World.initial 0) []
  have served := fundamentals_served run (List.mem_singleton_self _)
  change ServedSo id _ received.1 _ received.2.2 at served
  rw [entries] at served
  exact ⟨received.2.2, _, steady, served⟩

private theorem execute_head {A : Type} {program : Program (World Unit) (Answer Unit) A} {answer : Answer Unit}
    {log : List (Event (World Unit) (Answer Unit))} {world began : World Unit} (head : log.head? = some (.stepped began began)) :
    (program.execute answer log world).2.1.head? = some (.stepped began began) := by
  induction program generalizing log world with
  | done value => exact head
  | act effect rest ih => exact ih world (head_snoc head _)
  | ask rest ih => exact ih answer (head_snoc head _)

def asksPetr4 : Event (World Unit) (Answer Unit) → Bool
  | .stepped before after => after.ingestion = before.ingestion ++ [["PETR4"]]
  | .answered _ => false

def carriesNothing : Event (World Unit) (Answer Unit) → Bool
  | .answered (some _) => false
  | _ => true

/-- Eighteen hours after it was received, the payload is dropped before its fetch fails. -/
theorem fetch_loses : ∃ (pool : Pool Call (World Unit) (Answer Unit) (List (Arrival Unit))) (log : List (Event (World Unit) (Answer Unit))),
    Pool.Run (serve id) (fun _ _ => True) ⟨World.initial 0, []⟩ pool ∧
      ⟨.fundamentals ["PETR4"], .done [], log⟩ ∈ pool.running ∧ ¬ Served ["PETR4"] log [] pool.store := by
  have run := ((runs_alone (.fundamentals ["PETR4"]) (some [("PETR4", ())]) (World.initial 0) []).trans
    (runs_alone (.wait 64800000000) none received.2.2 _)).trans (runs_alone (.fundamentals ["PETR4"]) none waited.2.2 _)
  refine ⟨_, failed.2.1, run, ?_, fun served => ?_⟩
  · have entries : failed.1 = [] := by decide +kernel
    refine List.mem_append_right _ (List.mem_singleton.mpr ?_)
    rw [← entries]
    rfl
  · have head : failed.2.1.head? = some (.stepped waited.2.2 waited.2.2)  :=
      @execute_head _ _ none [.stepped waited.2.2 waited.2.2] waited.2.2 waited.2.2 rfl
    have known : "PETR4" ∈ waited.2.2.known := by decide +kernel
    have requests : failed.2.1.any asksPetr4 = true := by decide +kernel
    have unanswered : failed.2.1.all carriesNothing = true := by decide +kernel
    have requested : Requested failed.2.1 ["PETR4"] := by
      obtain ⟨event, member, runs⟩ := List.any_eq_true.mp requests
      cases event with
      | answered => cases runs
      | stepped before after => exact ⟨before, after, member, of_decide_eq_true runs⟩
    obtain ⟨payload, member, _⟩ := served.survives _ _ head "PETR4" (List.mem_singleton_self _) known (List.not_mem_nil)
      ["PETR4"] requested (List.mem_singleton_self _)
    exact Bool.noConfusion (List.all_eq_true.mp unanswered _ member)

end Lost

end C3po.Fundamentals
