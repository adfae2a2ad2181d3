import Mathlib.Logic.Relation

/-! Processes that share a store, one atomic step at a time.

A process reads and writes the shared store in atomic steps and asks its own
environment (a clock, a calendar) between them. Any number of processes run
interleaved. A process is verified alone, against what the steps of the others may do
to the store; the verified processes then meet their postconditions in every
interleaving.
-/

set_option autoImplicit false

namespace C3po.Library

/-- A process: finished, about to step on the store, or waiting for an answer. The
step after an atomic one sees the store that step found. -/
inductive Program (S I A : Type) where
  | done (value : A)
  | act (effect : S → S) (next : S → Program S I A)
  | ask (next : I → Program S I A)

namespace Program
variable {S I A B : Type}

def bind : Program S I A → (A → Program S I B) → Program S I B
  | .done value, next => next value
  | .act effect rest, next => .act effect fun store => (rest store).bind next
  | .ask rest, next => .ask fun answer => (rest answer).bind next

instance : Monad (Program S I) where
  pure := .done
  bind := Program.bind

def read (query : S → A) : Program S I A := .act id fun store => .done (query store)

def write (effect : S → S) (answer : S → A) : Program S I A :=
  .act effect fun store => .done (answer store)

def answer : Program S I I := .ask .done

/-- What a process that asks nothing answers on one store. -/
def evaluate : Program S I A → S → Option A
  | .done value, _ => some value
  | .act effect rest, store => (rest store).evaluate (effect store)
  | .ask _, _ => none

end Program

/-- What happened to a process so far. -/
inductive Event (S I : Type) where
  | answered (answer : I)
  | stepped (before after : S)

/-- The rules a family of processes keeps: the invariant of the store, what one step may
do to it, and what the environment may answer a process. -/
structure Protocol (S I : Type) where
  keeps : S → Prop
  moves : S → S → Prop
  allowed : List (Event S I) → I → Prop
  kept : ∀ {store next}, keeps store → moves store next → keeps next

namespace Protocol
variable {S I A B : Type} (P : Protocol S I)

def Later : S → S → Prop := Relation.ReflTransGen P.moves

variable {P}

theorem Later.refl (store : S) : P.Later store store := Relation.ReflTransGen.refl

theorem Later.trans {first second third : S} (before : P.Later first second)
    (after : P.Later second third) : P.Later first third :=
  Relation.ReflTransGen.trans before after

theorem Later.keeps {store next : S} (later : P.Later store next) (keeps : P.keeps store) :
    P.keeps next := by
  induction later with
  | refl => exact keeps
  | tail _ move ih => exact P.kept ih move

theorem Later.induct {Inv : S → Prop} {store next : S} (later : P.Later store next)
    (keeps : P.keeps store) (start : Inv store)
    (step : ∀ {first second}, P.keeps first → Inv first → P.moves first second → Inv second) : Inv next := by
  have both : P.keeps next ∧ Inv next := by
    induction later with
    | refl => exact ⟨keeps, start⟩
    | tail _ move ih => exact ⟨P.kept ih.1 move, step ih.1 ih.2 move⟩
  exact both.2

variable (P)

/-- The process keeps the rules from here on, whatever the others do in between, and
leaves the postcondition if it finishes. -/
def Holds : Program S I A → List (Event S I) → S → (A → List (Event S I) → S → Prop) → Prop
  | .done value, log, store, post => ∀ next, P.Later store next → post value log next
  | .act effect rest, log, store, post => ∀ next, P.Later store next →
      P.Later next (effect next) ∧
        Holds (rest next) (log ++ [.stepped next (effect next)]) (effect next) post
  | .ask rest, log, store, post => ∀ answer, P.allowed log answer →
      Holds (rest answer) (log ++ [.answered answer]) store post

variable {P}

theorem Holds.later {program : Program S I A} {log : List (Event S I)} {store next : S}
    {post : A → List (Event S I) → S → Prop} (holds : P.Holds program log store post)
    (later : P.Later store next) : P.Holds program log next post := by
  induction program generalizing log store next with
  | done value => exact fun other after => holds other (later.trans after)
  | act effect rest _ => exact fun other after => holds other (later.trans after)
  | ask rest ih => exact fun answer allowed => ih answer (holds answer allowed) later

theorem Holds.bind {program : Program S I A} {rest : A → Program S I B} {log : List (Event S I)} {store : S}
    {post : B → List (Event S I) → S → Prop}
    (holds : P.Holds program log store fun value log store => P.Holds (rest value) log store post) :
    P.Holds (program >>= rest) log store post := by
  induction program generalizing log store with
  | done value => exact holds store (Later.refl store)
  | act effect next ih =>
    intro other later
    obtain ⟨moved, after⟩ := holds other later
    exact ⟨moved, ih other after⟩
  | ask next ih => exact fun answer allowed => ih answer (holds answer allowed)

theorem Holds.pure {value : A} {log : List (Event S I)} {store : S}
    {post : A → List (Event S I) → S → Prop} (finished : ∀ next, P.Later store next → post value log next) :
    P.Holds (pure value : Program S I A) log store post := finished

theorem Holds.read {query : S → A} {rest : A → Program S I B} {log : List (Event S I)} {store : S}
    {post : B → List (Event S I) → S → Prop}
    (after : ∀ next, P.Later store next →
      P.Holds (rest (query next)) (log ++ [.stepped next next]) next post) :
    P.Holds (Program.read query >>= rest) log store post :=
  fun next later => ⟨Later.refl next, after next later⟩

theorem Holds.write {effect : S → S} {answer : S → A} {rest : A → Program S I B} {log : List (Event S I)}
    {store : S} {post : B → List (Event S I) → S → Prop}
    (after : ∀ next, P.Later store next → P.Later next (effect next) ∧
      P.Holds (rest (answer next)) (log ++ [.stepped next (effect next)]) (effect next) post) :
    P.Holds (Program.write effect answer >>= rest) log store post := after

theorem Holds.answer {rest : I → Program S I B} {log : List (Event S I)} {store : S}
    {post : B → List (Event S I) → S → Prop}
    (after : ∀ answer, P.allowed log answer →
      P.Holds (rest answer) (log ++ [.answered answer]) store post) :
    P.Holds (Program.answer >>= rest) log store post := after

theorem Holds.mono {program : Program S I A} {log : List (Event S I)} {store : S}
    {post weaker : A → List (Event S I) → S → Prop} (holds : P.Holds program log store post)
    (implied : ∀ value log next, P.Later store next → post value log next → weaker value log next) :
    P.Holds program log store weaker := by
  induction program generalizing log store with
  | done value => exact fun next later => implied value log next later (holds next later)
  | act effect rest ih =>
    intro next later
    obtain ⟨moved, after⟩ := holds next later
    exact ⟨moved, ih next after fun value log last reached =>
      implied value log last (later.trans (moved.trans reached))⟩
  | ask rest ih => exact fun answer allowed => ih answer (holds answer allowed) implied

/-- A loop keeps what each of its turns keeps, and what the others do not end. -/
theorem Holds.foldlM {step : B → A → Program S I B} (Inv : B → List (Event S I) → S → Prop) {items : List A}
    (turn : ∀ value, ∀ item ∈ items, ∀ log store, Inv value log store → P.Holds (step value item) log store Inv)
    (stable : ∀ value log store next, Inv value log store → P.Later store next → Inv value log next)
    {value : B} {log : List (Event S I)} {store : S} (start : Inv value log store) :
    P.Holds (items.foldlM step value) log store Inv := by
  induction items generalizing value log store with
  | nil => exact Holds.pure fun next later => stable value log store next start later
  | cons item rest ih =>
    rw [List.foldlM_cons]
    refine Holds.bind ((turn value item List.mem_cons_self log store start).mono ?_)
    intro next log store _ kept
    exact ih (fun value other member => turn value other (List.mem_cons_of_mem _ member)) kept

section Settled
variable (P)

/-- The process only reads, and what it reads no later store changes. -/
def Settled : Program S I A → S → Prop
  | .done _, _ => True
  | .act effect rest, store => effect = id ∧ (∀ next, P.Later store next → rest next = rest store) ∧
      Settled (rest store) store
  | .ask _, _ => False

variable {P} {program : Program S I A} {store next : S}

theorem Settled.later (settled : P.Settled program store) (later : P.Later store next) :
    P.Settled program next ∧ program.evaluate next = program.evaluate store := by
  induction program generalizing store next with
  | done value => exact ⟨trivial, rfl⟩
  | act effect rest ih =>
    obtain ⟨rfl, same, after⟩ := settled
    obtain ⟨settledNext, evaluated⟩ := ih store after later
    rw [← same next later] at settledNext evaluated
    refine ⟨⟨rfl, fun last reached => ?_, settledNext⟩, ?_⟩
    · rw [same last (later.trans reached), same next later]
    · change (rest next).evaluate next = (rest store).evaluate store
      rw [evaluated, same next later]
  | ask rest _ => exact settled.elim

theorem Settled.read {query : S → A} (same : ∀ next, P.Later store next → query next = query store) :
    P.Settled (Program.read query) store :=
  ⟨rfl, fun next later => congrArg Program.done (same next later), trivial⟩

theorem Settled.pure (value : A) : P.Settled (Pure.pure value) store := trivial

theorem Settled.bind {rest : A → Program S I B} (first : P.Settled program store)
    (second : ∀ value, program.evaluate store = some value → P.Settled (rest value) store) :
    P.Settled (program >>= rest) store := by
  induction program with
  | done value => exact second value rfl
  | act effect next ih =>
    obtain ⟨rfl, same, after⟩ := first
    exact ⟨rfl, fun other later => congrArg (fun program => program.bind rest) (same other later),
      ih store after second⟩
  | ask next _ => exact first.elim

theorem Settled.evaluate_bind {rest : A → Program S I B} {result : B} (first : P.Settled program store)
    (evaluated : (program >>= rest).evaluate store = some result) :
    ∃ value, program.evaluate store = some value ∧ (rest value).evaluate store = some result := by
  induction program with
  | done value => exact ⟨value, rfl, evaluated⟩
  | act effect next ih =>
    obtain ⟨rfl, same, after⟩ := first
    exact ih store after evaluated
  | ask next _ => exact first.elim

theorem Settled.evaluate_then {rest : A → Program S I B} {value : A} (first : P.Settled program store)
    (found : program.evaluate store = some value) : (program >>= rest).evaluate store = (rest value).evaluate store := by
  induction program with
  | done other =>
    cases found
    rfl
  | act effect next ih =>
    obtain ⟨rfl, _, after⟩ := first
    exact ih store after found
  | ask next _ => exact first.elim

theorem Settled.evaluate_foldlM {step : B → A → Program S I B} {plain : B → A → B}
    (turn : ∀ value item, P.Settled (step value item) store ∧ (step value item).evaluate store = some (plain value item))
    (items : List A) (value : B) : (items.foldlM step value).evaluate store = some (items.foldl plain value) := by
  induction items generalizing value with
  | nil => rfl
  | cons item rest ih =>
    rw [List.foldlM_cons, Settled.evaluate_then (turn value item).1 (turn value item).2, ih, List.foldl_cons]

theorem Settled.foldlM {step : B → A → Program S I B} (Inv : B → Prop) {items : List A}
    (turn : ∀ value, ∀ item ∈ items, Inv value → P.Settled (step value item) store ∧
      ∀ result, (step value item).evaluate store = some result → Inv result)
    {value : B} (start : Inv value) :
    P.Settled (items.foldlM step value) store ∧
      ∀ result, (items.foldlM step value).evaluate store = some result → Inv result := by
  induction items generalizing value with
  | nil => exact ⟨trivial, fun result same => by cases same; exact start⟩
  | cons item rest ih =>
    obtain ⟨settled, kept⟩ := turn value item List.mem_cons_self start
    have after : ∀ next, (step value item).evaluate store = some next →
        P.Settled (rest.foldlM step next) store ∧
          ∀ result, (rest.foldlM step next).evaluate store = some result → Inv result := fun next found =>
      ih (fun value other member => turn value other (List.mem_cons_of_mem _ member)) (kept next found)
    rw [List.foldlM_cons]
    refine ⟨settled.bind fun next found => (after next found).1, fun result same => ?_⟩
    obtain ⟨next, found, final⟩ := settled.evaluate_bind same
    exact (after next found).2 result final

end Settled
end Protocol

/-- A process of the pool, under the call it serves. -/
structure Running (C S I A : Type) where
  call : C
  program : Program S I A
  log : List (Event S I)

structure Pool (C S I A : Type) where
  store : S
  running : List (Running C S I A)

namespace Pool
variable {C S I A : Type}

/-- One step of the pool: a call starts, or one process takes one step. -/
inductive Step (body : C → Program S I A) (allowed : List (Event S I) → I → Prop) :
    Pool C S I A → Pool C S I A → Prop where
  | start (pool : Pool C S I A) (call : C) :
      Step body allowed pool ⟨pool.store, pool.running ++ [⟨call, body call, []⟩]⟩
  | act {store : S} {front back : List (Running C S I A)} {call : C} {effect : S → S}
      {rest : S → Program S I A} {log : List (Event S I)} :
      Step body allowed ⟨store, front ++ ⟨call, .act effect rest, log⟩ :: back⟩
        ⟨effect store, front ++ ⟨call, rest store, log ++ [.stepped store (effect store)]⟩ :: back⟩
  | ask {store : S} {front back : List (Running C S I A)} {call : C} {rest : I → Program S I A}
      {log : List (Event S I)} (answer : I) (possible : allowed log answer) :
      Step body allowed ⟨store, front ++ ⟨call, .ask rest, log⟩ :: back⟩
        ⟨store, front ++ ⟨call, rest answer, log ++ [.answered answer]⟩ :: back⟩

/-- Every interleaving of any number of calls. -/
def Run (body : C → Program S I A) (allowed : List (Event S I) → I → Prop) :
    Pool C S I A → Pool C S I A → Prop :=
  Relation.ReflTransGen (Step body allowed)

variable {body : C → Program S I A} {P : Protocol S I} {post : C → A → List (Event S I) → S → Prop}

theorem step_verified (verified : ∀ call store, P.keeps store → P.Holds (body call) [] store (post call))
    {pool next : Pool C S I A} (step : Step body P.allowed pool next) (keeps : P.keeps pool.store)
    (running : ∀ process ∈ pool.running, P.Holds process.program process.log pool.store (post process.call)) :
    P.Later pool.store next.store ∧
      ∀ process ∈ next.running, P.Holds process.program process.log next.store (post process.call) := by
  cases step with
  | start _ call =>
    refine ⟨Protocol.Later.refl _, fun process member => ?_⟩
    rcases List.mem_append.mp member with earlier | new
    · exact running process earlier
    · rw [List.mem_singleton.mp new]
      exact verified call pool.store keeps
  | act =>
    rename_i store front back call effect rest log
    obtain ⟨moved, after⟩ := running ⟨call, .act effect rest, log⟩ (by simp) store (Protocol.Later.refl store)
    refine ⟨moved, fun process member => ?_⟩
    rcases List.mem_append.mp member with earlier | later
    · exact (running process (List.mem_append_left _ earlier)).later moved
    · rcases List.mem_cons.mp later with rfl | later
      · exact after
      · exact (running process (List.mem_append_right _ (List.mem_cons_of_mem _ later))).later moved
  | ask answer possible =>
    rename_i store front back call rest log
    have after := running ⟨call, .ask rest, log⟩ (by simp) answer possible
    refine ⟨Protocol.Later.refl store, fun process member => ?_⟩
    rcases List.mem_append.mp member with earlier | later
    · exact running process (List.mem_append_left _ earlier)
    · rcases List.mem_cons.mp later with rfl | later
      · exact after
      · exact running process (List.mem_append_right _ (List.mem_cons_of_mem _ later))

theorem run_verified (verified : ∀ call store, P.keeps store → P.Holds (body call) [] store (post call))
    {pool next : Pool C S I A} (run : Run body P.allowed pool next) (keeps : P.keeps pool.store)
    (running : ∀ process ∈ pool.running, P.Holds process.program process.log pool.store (post process.call)) :
    P.Later pool.store next.store ∧
      ∀ process ∈ next.running, P.Holds process.program process.log next.store (post process.call) := by
  induction run with
  | refl => exact ⟨Protocol.Later.refl _, running⟩
  | tail _ step ih =>
    obtain ⟨earlier, verifiedSoFar⟩ := ih
    obtain ⟨moved, after⟩ := step_verified verified step (earlier.keeps keeps) verifiedSoFar
    exact ⟨earlier.trans moved, after⟩

theorem run_finished (verified : ∀ call store, P.keeps store → P.Holds (body call) [] store (post call))
    {store : S} {next : Pool C S I A} (run : Run body P.allowed ⟨store, []⟩ next) (keeps : P.keeps store)
    {call : C} {value : A} {log : List (Event S I)} (finished : ⟨call, .done value, log⟩ ∈ next.running) :
    post call value log next.store := by
  obtain ⟨_, running⟩ := run_verified verified run keeps (fun _ member => nomatch member)
  exact running _ finished next.store (Protocol.Later.refl _)

end Pool

/-! A process as part of a larger one.

What a process does to its own store it does to a part of a larger one. Verified by the
rules of its own store, it is verified by every rules of the larger one that allow of the
part what its own allow.
-/

variable {S T I J A B : Type}

/-- The process on a part of a larger store. -/
def Program.zoom (get : T → S) (put : S → T → T) (hear : J → I) : Program S I A → Program T J A
  | .done value => .done value
  | .act effect rest => .act (fun whole => put (effect (get whole)) whole) fun whole => (rest (get whole)).zoom get put hear
  | .ask rest => .ask fun answer => (rest (hear answer)).zoom get put hear

def Event.zoom (get : T → S) (hear : J → I) : Event T J → Event S I
  | .answered answer => .answered (hear answer)
  | .stepped before after => .stepped (get before) (get after)

namespace Protocol

/-- Rules of a whole that allow of a part what the rules of the part allow. -/
structure Part (P : Protocol S I) (Q : Protocol T J) (get : T → S) (put : S → T → T) (hear : J → I) : Prop where
  get_put : ∀ part whole, get (put part whole) = part
  later : ∀ {whole next}, Q.Later whole next → P.Later (get whole) (get next)
  moved : ∀ {whole part}, P.Later (get whole) part → Q.Later whole (put part whole)
  allowed : ∀ {log answer}, Q.allowed log answer → P.allowed (log.map (Event.zoom get hear)) (hear answer)

variable {P : Protocol S I} {Q : Protocol T J} {get : T → S} {put : S → T → T} {hear : J → I}

theorem Holds.zoom (part : Part P Q get put hear) {program : Program S I A} {log : List (Event T J)} {whole : T}
    {post : A → List (Event S I) → S → Prop} (holds : P.Holds program (log.map (Event.zoom get hear)) (get whole) post) :
    Q.Holds (program.zoom get put hear) log whole fun value log next => post value (log.map (Event.zoom get hear)) (get next) := by
  induction program generalizing log whole with
  | done value => exact fun next later => holds (get next) (part.later later)
  | act effect rest ih =>
    intro next later
    obtain ⟨moved, after⟩ := holds (get next) (part.later later)
    refine ⟨part.moved moved, ih (get next) ?_⟩
    rw [List.map_append, part.get_put]
    simpa only [List.map_cons, List.map_nil, Event.zoom, part.get_put] using after
  | ask rest ih =>
    intro answer allowed
    refine ih (hear answer) ?_
    rw [List.map_append]
    exact holds (hear answer) (part.allowed allowed)

theorem Holds.traced {P : Protocol S I} {program : Program S I A} {log : List (Event S I)} {store : S}
    {post : A → List (Event S I) → S → Prop} (holds : P.Holds program log store post) :
    P.Holds program log store fun value final next => post value final next ∧ log <+: final ∧ P.Later store next := by
  induction program generalizing log store with
  | done value => exact fun next later => ⟨holds next later, List.prefix_rfl, later⟩
  | act effect rest ih =>
    intro next later
    obtain ⟨moved, after⟩ := holds next later
    refine ⟨moved, (ih next after).mono fun value final last _ traced => ?_⟩
    exact ⟨traced.1, (List.prefix_append _ _).trans traced.2.1, later.trans (moved.trans traced.2.2)⟩
  | ask rest ih =>
    intro answer allowed
    refine (ih answer (holds answer allowed)).mono fun value final last _ traced => ?_
    exact ⟨traced.1, (List.prefix_append _ _).trans traced.2.1, traced.2.2⟩

end Protocol
end C3po.Library

/-! A process that runs to its end with no other step in between.

Alone a process needs only its answers. What every such run ends in has the rules of a
weakest precondition; a process verified against the others keeps its postcondition alone.
-/

namespace C3po.Library
namespace Program
variable {S I A B : Type}

/-- The run in which every question is answered alike. -/
def execute (answer : I) : Program S I A → List (Event S I) → S → A × List (Event S I) × S
  | .done value, log, store => (value, log, store)
  | .act effect rest, log, store =>
      (rest store).execute answer (log ++ [.stepped store (effect store)]) (effect store)
  | .ask rest, log, store => (rest answer).execute answer (log ++ [.answered answer]) store

theorem run_execute {C : Type} {body : C → Program S I A} {allowed : List (Event S I) → I → Prop} {answer : I}
    (possible : ∀ log, (∀ other, .answered other ∈ log → other = answer) → allowed log answer)
    {call : C} {running : List (Running C S I A)} (program : Program S I A) {log : List (Event S I)} {store : S}
    (alike : ∀ other, .answered other ∈ log → other = answer) :
    Pool.Run body allowed ⟨store, running ++ [⟨call, program, log⟩]⟩
      ⟨(program.execute answer log store).2.2,
        running ++ [⟨call, .done (program.execute answer log store).1, (program.execute answer log store).2.1⟩]⟩ := by
  induction program generalizing log store with
  | done value => exact Relation.ReflTransGen.refl
  | act effect rest ih =>
    refine Relation.ReflTransGen.head Pool.Step.act (ih store fun other member => ?_)
    rcases List.mem_append.mp member with earlier | new
    · exact alike other earlier
    · cases List.mem_singleton.mp new
  | ask rest ih =>
    refine Relation.ReflTransGen.head (Pool.Step.ask answer (possible log alike)) (ih answer fun other member => ?_)
    rcases List.mem_append.mp member with earlier | new
    · exact alike other earlier
    · cases List.mem_singleton.mp new
      rfl

/-- Every run alone, answered so, ends in the postcondition. -/
def Always (answers : I → Prop) : Program S I A → S → (A → S → Prop) → Prop
  | .done value, store, post => post value store
  | .act effect rest, store, post => Always answers (rest store) (effect store) post
  | .ask rest, store, post => ∀ answer, answers answer → Always answers (rest answer) store post

variable {answers : I → Prop}

theorem always_bind {program : Program S I A} {rest : A → Program S I B} {store : S} {post : B → S → Prop} :
    Always answers (program >>= rest) store post ↔
      Always answers program store fun value middle => Always answers (rest value) middle post := by
  induction program generalizing store with
  | done value => exact Iff.rfl
  | act effect next ih => exact ih store
  | ask next ih => exact forall_congr' fun answer => imp_congr_right fun _ => ih answer

theorem always_read {query : S → A} {rest : A → Program S I B} {store : S} {post : B → S → Prop} :
    Always answers (read query >>= rest) store post ↔ Always answers (rest (query store)) store post := Iff.rfl

theorem always_write {effect : S → S} {answer : S → A} {rest : A → Program S I B} {store : S} {post : B → S → Prop} :
    Always answers (write effect answer >>= rest) store post ↔
      Always answers (rest (answer store)) (effect store) post := Iff.rfl

theorem always_answer {rest : I → Program S I B} {store : S} {post : B → S → Prop} :
    Always answers (answer >>= rest) store post ↔ ∀ given, answers given → Always answers (rest given) store post :=
  Iff.rfl

theorem Always.mono {program : Program S I A} {store : S} {post weaker : A → S → Prop}
    (always : Always answers program store post) (implied : ∀ value final, post value final → weaker value final) :
    Always answers program store weaker := by
  induction program generalizing store with
  | done value => exact implied value store always
  | act effect rest ih => exact ih store always
  | ask rest ih => exact fun answer given => ih answer (always answer given)

theorem Always.and {program : Program S I A} {store : S} {first second : A → S → Prop}
    (one : Always answers program store first) (other : Always answers program store second) :
    Always answers program store fun value final => first value final ∧ second value final := by
  induction program generalizing store with
  | done value => exact ⟨one, other⟩
  | act effect rest ih => exact ih store one other
  | ask rest ih => exact fun answer given => ih answer (one answer given) (other answer given)

/-- A process in sequence with what follows it. -/
theorem Always.then {program : Program S I A} {rest : A → Program S I B} {store : S} {found : A → S → Prop}
    {post : B → S → Prop} (always : Always answers program store found)
    (after : ∀ value middle, found value middle → Always answers (rest value) middle post) :
    Always answers (program >>= rest) store post :=
  always_bind.mpr (always.mono after)

/-- A loop, with an invariant on what is left to do. -/
theorem Always.foldlM {step : B → A → Program S I B} (Inv : List A → B → S → Prop) {items : List A}
    {value : B} {store : S} (start : Inv items value store)
    (turn : ∀ item rest value store, item ∈ items → Inv (item :: rest) value store →
      Always answers (step value item) store fun value store => Inv rest value store) :
    Always answers (items.foldlM step value) store fun value store => Inv [] value store := by
  have each : ∀ remaining value store, remaining ⊆ items → Inv remaining value store →
      Always answers (remaining.foldlM step value) store fun value store => Inv [] value store := by
    intro remaining
    induction remaining with
    | nil => exact fun value store _ holds => holds
    | cons item rest ih =>
      intro value store inside holds
      rw [List.foldlM_cons]
      refine (turn item rest value store (inside List.mem_cons_self) holds).then fun value store held => ?_
      exact ih value store (fun _ member => inside (List.mem_cons_of_mem _ member)) held
  exact each items value store (fun _ member => member) start

theorem Always.execute {program : Program S I A} {store : S} {post : A → S → Prop} {answer : I}
    (always : Always answers program store post) (given : answers answer) (log : List (Event S I)) :
    post (program.execute answer log store).1 (program.execute answer log store).2.2 := by
  induction program generalizing store log with
  | done value => exact always
  | act effect rest ih => exact ih store always _
  | ask rest ih => exact ih answer (always answer given) _

end Program

/-- A process verified against the others keeps its postcondition alone. -/
theorem Protocol.Holds.always {S I A : Type} {P : Protocol S I} {answers : I → Prop} {program : Program S I A}
    {log : List (Event S I)} {store : S} {post : A → List (Event S I) → S → Prop}
    (holds : P.Holds program log store post) (allowed : ∀ log answer, answers answer → P.allowed log answer) :
    program.Always answers store fun value final => P.Later store final ∧ ∃ later, post value later final := by
  induction program generalizing log store with
  | done value => exact ⟨Protocol.Later.refl store, log, holds store (Protocol.Later.refl store)⟩
  | act effect rest ih =>
    obtain ⟨moved, after⟩ := holds store (Protocol.Later.refl store)
    exact (ih store after).mono fun value final found => ⟨moved.trans found.1, found.2⟩
  | ask rest ih => exact fun answer given => ih answer (holds answer (allowed log answer given))

end C3po.Library
