import C3po.Library.Interleaving

/-! Scripts: a process with a memory of its own that steps on a durable world, may raise,
and may be killed between any two of its steps.

What is killed loses its memory and leaves the world as it is. A script is verified with an
invariant that holds between any two steps; the invariant then holds in every state that
runs of scripts, killed or not, ever leave.
-/

set_option autoImplicit false

namespace C3po.Library

namespace Program
variable {W I A B : Type}

/-- The invariant holds between any two steps, and what finishes leaves the postcondition. -/
def Survives (inv : W → Prop) : Program W I A → W → (A → W → Prop) → Prop
  | .done value, world, post => inv world ∧ post value world
  | .act effect rest, world, post => inv world ∧ Survives inv (rest world) (effect world) post
  | .ask rest, world, post => inv world ∧ ∀ answer, Survives inv (rest answer) world post

variable {inv : W → Prop} {program : Program W I A} {world : W} {post weaker : A → W → Prop}

theorem Survives.now (survives : Survives inv program world post) : inv world := by
  cases program with
  | done value => exact survives.1
  | act effect rest => exact survives.1
  | ask rest => exact survives.1

theorem Survives.bind {rest : A → Program W I B} {post : B → W → Prop}
    (survives : Survives inv program world fun value world => Survives inv (rest value) world post) :
    Survives inv (program >>= rest) world post := by
  induction program generalizing world with
  | done value => exact survives.2
  | act effect next ih => exact ⟨survives.1, ih world survives.2⟩
  | ask next ih => exact ⟨survives.1, fun answer => ih answer (survives.2 answer)⟩

theorem Survives.mono (survives : Survives inv program world post)
    (implied : ∀ value final, inv final → post value final → weaker value final) :
    Survives inv program world weaker := by
  induction program generalizing world with
  | done value => exact ⟨survives.1, implied value world survives.1 survives.2⟩
  | act effect rest ih => exact ⟨survives.1, ih world survives.2⟩
  | ask rest ih => exact ⟨survives.1, fun answer => ih answer (survives.2 answer)⟩

theorem Survives.widen {wider : W → Prop} (survives : Survives inv program world post)
    (implied : ∀ world, inv world → wider world) : Survives wider program world post := by
  induction program generalizing world with
  | done value => exact ⟨implied world survives.1, survives.2⟩
  | act effect rest ih => exact ⟨implied world survives.1, ih world survives.2⟩
  | ask rest ih => exact ⟨implied world survives.1, fun answer => ih answer (survives.2 answer)⟩

theorem Survives.both {second : W → Prop} {other : A → W → Prop} (survives : Survives inv program world post)
    (also : Survives second program world other) :
    Survives (fun world => inv world ∧ second world) program world fun value final => post value final ∧ other value final := by
  induction program generalizing world with
  | done value => exact ⟨⟨survives.1, also.1⟩, survives.2, also.2⟩
  | act effect rest ih => exact ⟨⟨survives.1, also.1⟩, ih world survives.2 also.2⟩
  | ask rest ih => exact ⟨⟨survives.1, also.1⟩, fun answer => ih answer (survives.2 answer) (also.2 answer)⟩

end Program

/-- One place where processes run one at a time. -/
structure Host (W I A : Type) where
  world : W
  running : Option (Program W I A)

namespace Host
variable {C W I A : Type}

/-- A call starts when nothing runs; what runs takes a step, finishes, or is killed. -/
inductive Step (body : C → Program W I A) : Host W I A → Host W I A → Prop where
  | start (world : W) (call : C) : Step body ⟨world, none⟩ ⟨world, some (body call)⟩
  | act (world : W) (effect : W → W) (rest : W → Program W I A) :
      Step body ⟨world, some (.act effect rest)⟩ ⟨effect world, some (rest world)⟩
  | ask (world : W) (rest : I → Program W I A) (answer : I) :
      Step body ⟨world, some (.ask rest)⟩ ⟨world, some (rest answer)⟩
  | finish (world : W) (value : A) : Step body ⟨world, some (.done value)⟩ ⟨world, none⟩
  | kill (world : W) (program : Program W I A) : Step body ⟨world, some program⟩ ⟨world, none⟩

def Run (body : C → Program W I A) : Host W I A → Host W I A → Prop := Relation.ReflTransGen (Step body)

variable {body : C → Program W I A} {inv : W → Prop}

def RunWithin (kind : Host W I A → Prop) (body : C → Program W I A) : Host W I A → Host W I A → Prop :=
  Relation.ReflTransGen fun host next => Step body host next ∧ kind next

/-- What runs has a proof of its rest. -/
def Underway (inv : W → Prop) (post : A → W → Prop) (host : Host W I A) : Prop :=
  inv host.world ∧ ∀ program, host.running = some program → Program.Survives inv program host.world post

theorem Underway.finished {post : A → W → Prop} {host : Host W I A} {value : A} (underway : Underway inv post host)
    (finished : host.running = some (.done value)) : post value host.world := (underway.2 _ finished).2

theorem run_within_survives {kind : Host W I A → Prop} {resting : W → Prop} {post : A → W → Prop}
    (verified : ∀ call world, inv world → resting world → Program.Survives inv (body call) world post)
    (rests : ∀ world, kind ⟨world, none⟩ → resting world)
    {world : W} {next : Host W I A} (start : inv world) (rested : resting world)
    (run : RunWithin kind body ⟨world, none⟩ next) : Underway inv post next := by
  have both : Underway inv post next ∧ (next.running = none → resting next.world) := by
    induction run with
    | refl => exact ⟨⟨start, fun _ none => nomatch none⟩, fun _ => rested⟩
    | tail _ step ih =>
      obtain ⟨⟨holds, running⟩, still⟩ := ih
      obtain ⟨step, kindly⟩ := step
      cases step with
      | start world call =>
        refine ⟨⟨holds, fun program same => ?_⟩, fun none => nomatch none⟩
        cases same
        exact verified call world holds (still rfl)
      | act world effect rest =>
        have after := (running _ rfl).2
        exact ⟨⟨after.now, fun program same => by cases same; exact after⟩, fun none => nomatch none⟩
      | ask world rest answer =>
        have after := (running _ rfl).2 answer
        exact ⟨⟨holds, fun program same => by cases same; exact after⟩, fun none => nomatch none⟩
      | finish world value => exact ⟨⟨holds, fun _ none => nomatch none⟩, fun _ => rests world kindly⟩
      | kill world program => exact ⟨⟨holds, fun _ none => nomatch none⟩, fun _ => rests world kindly⟩
  exact both.1

/-- What holds between the steps of every call holds in every state that runs leave. -/
theorem run_survives
    (verified : ∀ call world, inv world → Program.Survives inv (body call) world fun _ _ => True)
    {world : W} {next : Host W I A} (start : inv world) (run : Run body ⟨world, none⟩ next) : inv next.world := by
  have within : RunWithin (fun _ => True) body ⟨world, none⟩ next := by
    induction run with
    | refl => exact Relation.ReflTransGen.refl
    | tail _ step ih => exact ih.tail ⟨step, trivial⟩
  exact (run_within_survives (fun call world holds _ => verified call world holds) (fun _ _ => trivial) start trivial
    within).1

/-- What is left of a program once so many of its questions are answered. -/
def told : List I → Program W I A → W → Program W I A × W
  | _, .done value, world => (.done value, world)
  | answers, .act effect rest, world => told answers (rest world) (effect world)
  | [], .ask rest, world => (.ask rest, world)
  | answer :: answers, .ask rest, world => told answers (rest answer) world

theorem run_told (answers : List I) (program : Program W I A) (world : W) :
    Run body ⟨world, some program⟩ ⟨(told answers program world).2, some (told answers program world).1⟩ := by
  induction program generalizing answers world with
  | done value => cases answers <;> exact Relation.ReflTransGen.refl
  | act effect rest ih =>
    have next := Relation.ReflTransGen.head (Step.act world effect rest) (ih world answers (effect world))
    cases answers <;> exact next
  | ask rest ih =>
    cases answers with
    | nil => exact Relation.ReflTransGen.refl
    | cons answer answers => exact Relation.ReflTransGen.head (Step.ask world rest answer) (ih answer answers world)

theorem run_begun (answers : List I) (call : C) (world : W) :
    Run body ⟨world, none⟩ ⟨(told answers (body call) world).2, some (told answers (body call) world).1⟩ :=
  Relation.ReflTransGen.head (Step.start world call) (run_told answers (body call) world)

theorem run_left (answers : List I) (call : C) (world : W) :
    Run body ⟨world, none⟩ ⟨(told answers (body call) world).2, none⟩ :=
  Relation.ReflTransGen.tail (run_begun answers call world) (Step.kill _ _)

end Host

/-- A process with a memory that may raise. What it did to the memory survives the raise. -/
def Script (M W I E A : Type) := M → Program W I (Except E A × M)

namespace Script
variable {M W I E A B : Type}

instance : Monad (Script M W I E) where
  pure value := fun memory => .done (.ok value, memory)
  bind first next := fun memory => (first memory).bind fun answer =>
    match answer.1 with
    | .ok value => next value answer.2
    | .error raised => .done (.error raised, answer.2)

def raise (raised : E) : Script M W I E A := fun memory => .done (.error raised, memory)

/-- The outcome of a request that may fail. -/
def outcome (result : Except E A) : Script M W I E A := fun memory => .done (result, memory)

def ask : Script M W I E I := fun memory => .ask fun answer => .done (.ok answer, memory)

def step (effect : W → W) : Script M W I E Unit := fun memory => .act effect fun _ => .done (.ok (), memory)

def look (query : W → A) : Script M W I E A := fun memory => .act id fun world => .done (.ok (query world), memory)

def recalled : Script M W I E M := fun memory => .done (.ok memory, memory)

def remember (change : M → M) : Script M W I E Unit := fun memory => .done (.ok (), change memory)

/-- What a raise is caught by. -/
def attempt (script : Script M W I E A) (handler : E → Script M W I E A) : Script M W I E A := fun memory =>
  (script memory).bind fun answer =>
    match answer.1 with
    | .ok value => .done (.ok value, answer.2)
    | .error raised => handler raised answer.2

/-- How the replacement of a file ends: done, refused before it, or failed after it. -/
inductive Replacement where
  | done
  | refused
  | unsure
  deriving DecidableEq, Repr

/-- A durable replacement, as the environment lets it end. -/
def replace (ends : I → Replacement) (failure : E) (effect : W → W) : Script M W I E Unit := do
  let answer ← ask
  match ends answer with
  | .done => step effect
  | .refused => raise failure
  | .unsure =>
      step effect
      raise failure

/-- The invariant holds between any two steps of the script. -/
def Safe (inv : W → Prop) (script : Script M W I E A) (memory : M) (world : W)
    (post : Except E A → M → W → Prop) : Prop :=
  Program.Survives inv (script memory) world fun answer final => post answer.1 answer.2 final

variable {inv : W → Prop} {memory : M} {world : W} {script : Script M W I E A}
  {post weaker : Except E A → M → W → Prop}

theorem Safe.widen {wider : W → Prop} (safe : Safe inv script memory world post)
    (implied : ∀ world, inv world → wider world) : Safe wider script memory world post := Program.Survives.widen safe implied

theorem Safe.mono (safe : Safe inv script memory world post)
    (implied : ∀ result memory final, inv final → post result memory final → weaker result memory final) :
    Safe inv script memory world weaker :=
  Program.Survives.mono safe fun answer final => implied answer.1 answer.2 final

theorem Safe.pure {value : A} (holds : inv world) (after : post (.ok value) memory world) :
    Safe inv (Pure.pure value : Script M W I E A) memory world post := ⟨holds, after⟩

theorem Safe.raise {raised : E} (holds : inv world) (after : post (.error raised) memory world) :
    Safe inv (Script.raise raised : Script M W I E A) memory world post := ⟨holds, after⟩

theorem Safe.outcome {result : Except E A} (holds : inv world) (after : post result memory world) :
    Safe inv (Script.outcome result : Script M W I E A) memory world post := ⟨holds, after⟩

theorem Safe.ask {post : Except E I → M → W → Prop} (holds : inv world) (after : ∀ answer, post (.ok answer) memory world) :
    Safe inv (Script.ask : Script M W I E I) memory world post := ⟨holds, fun answer => ⟨holds, after answer⟩⟩

theorem Safe.step {effect : W → W} {post : Except E Unit → M → W → Prop} (holds : inv world)
    (kept : inv (effect world)) (after : post (.ok ()) memory (effect world)) :
    Safe inv (Script.step effect : Script M W I E Unit) memory world post := ⟨holds, kept, after⟩

theorem Safe.look {query : W → A} (holds : inv world) (after : post (.ok (query world)) memory world) :
    Safe inv (Script.look query : Script M W I E A) memory world post := ⟨holds, holds, after⟩

theorem Safe.recalled {post : Except E M → M → W → Prop} (holds : inv world) (after : post (.ok memory) memory world) :
    Safe inv (Script.recalled : Script M W I E M) memory world post := ⟨holds, after⟩

theorem Safe.remember {change : M → M} {post : Except E Unit → M → W → Prop} (holds : inv world)
    (after : post (.ok ()) (change memory) world) :
    Safe inv (Script.remember change : Script M W I E Unit) memory world post := ⟨holds, after⟩

theorem Safe.bind {next : A → Script M W I E B} {post : Except E B → M → W → Prop}
    (safe : Safe inv script memory world fun result memory world =>
      match result with
      | .ok value => Safe inv (next value) memory world post
      | .error raised => post (.error raised) memory world) :
    Safe inv (script >>= next) memory world post := by
  refine Program.Survives.bind (Program.Survives.mono safe fun answer final holds after => ?_)
  obtain ⟨result, memory⟩ := answer
  cases result with
  | ok value => exact after
  | error raised => exact ⟨holds, after⟩

theorem Safe.attempt {handler : E → Script M W I E A}
    (safe : Safe inv script memory world fun result memory world =>
      match result with
      | .ok value => post (.ok value) memory world
      | .error raised => Safe inv (handler raised) memory world post) :
    Safe inv (script.attempt handler) memory world post := by
  refine Program.Survives.bind (Program.Survives.mono safe fun answer final holds after => ?_)
  obtain ⟨result, memory⟩ := answer
  cases result with
  | ok value => exact ⟨holds, after⟩
  | error raised => exact after

theorem Safe.foldlM {turn : B → A → Script M W I E B} (Loop : B → M → W → Prop) (Raised : E → M → W → Prop)
    {items : List A} {value : B} (holds : inv world) (start : Loop value memory world)
    (each : ∀ value, ∀ item ∈ items, ∀ memory world, inv world → Loop value memory world →
      Safe inv (turn value item) memory world fun result memory world =>
        match result with
        | .ok next => Loop next memory world
        | .error raised => Raised raised memory world) :
    Safe inv (items.foldlM turn value) memory world fun result memory world =>
      match result with
      | .ok next => Loop next memory world
      | .error raised => Raised raised memory world := by
  induction items generalizing value memory world with
  | nil => exact ⟨holds, start⟩
  | cons item rest ih =>
    rw [List.foldlM_cons]
    refine Safe.bind (Safe.mono (each value item List.mem_cons_self memory world holds start)
      fun result memory final kept after => ?_)
    cases result with
    | ok next => exact ih kept after fun value other member => each value other (List.mem_cons_of_mem _ member)
    | error raised => exact after

section Postconditions
variable {bad : M → W → Prop}

/-- What finishes leaves one postcondition, what raises another. -/
def Leaves (bad : M → W → Prop) (good : A → M → W → Prop) : Except E A → M → W → Prop
  | .ok value, memory, world => good value memory world
  | .error _, memory, world => bad memory world

def Holds (inv : W → Prop) (bad : M → W → Prop) (script : Script M W I E A) (memory : M) (world : W)
    (good : A → M → W → Prop) : Prop :=
  Safe inv script memory world (Leaves bad good)

/-- Where a script is between two steps, and may raise. -/
structure Here (inv : W → Prop) (bad : M → W → Prop) (memory : M) (world : W) : Prop where
  upheld : inv world
  raised : bad memory world

namespace Holds
variable {good better : A → M → W → Prop}

theorem bind {next : A → Script M W I E B} {good : B → M → W → Prop}
    (first : Holds inv bad script memory world fun value memory world => Holds inv bad (next value) memory world good) :
    Holds inv bad (script >>= next) memory world good := by
  refine Safe.bind (Safe.mono first fun result memory final _ leaves => ?_)
  cases result <;> exact leaves

theorem mono (holds : Holds inv bad script memory world better)
    (implied : ∀ value memory final, inv final → better value memory final → good value memory final) :
    Holds inv bad script memory world good := by
  refine Safe.mono holds fun result memory final upheld leaves => ?_
  cases result with
  | ok value => exact implied value memory final upheld leaves
  | error raised => exact leaves

theorem raises {worse : M → W → Prop} (holds : Holds inv bad script memory world good)
    (implied : ∀ memory final, bad memory final → worse memory final) : Holds inv worse script memory world good := by
  refine Safe.mono holds fun result memory final _ leaves => ?_
  cases result with
  | ok value => exact leaves
  | error raised => exact implied memory final leaves

theorem ite {condition : Prop} [Decidable condition] {yes no : Script M W I E A}
    (first : condition → Holds inv bad yes memory world good) (second : ¬condition → Holds inv bad no memory world good) :
    Holds inv bad (if condition then yes else no) memory world good := by
  split
  · exact first (by assumption)
  · exact second (by assumption)

theorem attempt {within : M → W → Prop} {handler : E → Script M W I E A}
    (first : Holds inv within script memory world good)
    (handled : ∀ raised memory world, Here inv within memory world → Holds inv bad (handler raised) memory world good) :
    Holds inv bad (script.attempt handler) memory world good := by
  refine Safe.attempt (Safe.mono first fun result memory final upheld leaves => ?_)
  cases result with
  | ok value => exact leaves
  | error raised => exact handled raised memory final ⟨upheld, leaves⟩

theorem foldlM {turn : B → A → Script M W I E B} (Loop : B → M → W → Prop) {items : List A} {value : B}
    (upheld : inv world) (start : Loop value memory world)
    (each : ∀ value, ∀ item ∈ items, ∀ memory world, inv world → Loop value memory world →
      Holds inv bad (turn value item) memory world Loop) :
    Holds inv bad (items.foldlM turn value) memory world Loop := by
  refine Safe.mono (Safe.foldlM Loop (fun _ => bad) upheld start fun value item member memory world upheld loop => ?_)
    fun result memory world _ leaves => ?_
  · refine Safe.mono (each value item member memory world upheld loop) fun result memory world _ leaves => ?_
    cases result <;> exact leaves
  · cases result <;> exact leaves

end Holds

namespace Here
variable (here : Here inv bad memory world)
include here

theorem pure {good : A → M → W → Prop} {value : A} (after : good value memory world) :
    Holds inv bad (Pure.pure value : Script M W I E A) memory world good := Safe.pure here.upheld after

theorem raise {good : A → M → W → Prop} (raised : E) :
    Holds inv bad (Script.raise raised : Script M W I E A) memory world good := Safe.raise here.upheld here.raised

theorem outcome {good : A → M → W → Prop} {result : Except E A}
    (after : ∀ value, result = .ok value → good value memory world) :
    Holds inv bad (Script.outcome result : Script M W I E A) memory world good := by
  apply Safe.outcome here.upheld
  cases result with
  | ok value => exact after value rfl
  | error raised => exact here.raised

theorem ask {good : I → M → W → Prop} (after : ∀ answer, good answer memory world) :
    Holds inv bad (Script.ask : Script M W I E I) memory world good := Safe.ask here.upheld after

theorem recalled {good : M → M → W → Prop} (after : good memory memory world) :
    Holds inv bad (Script.recalled : Script M W I E M) memory world good := Safe.recalled here.upheld after

theorem remember {good : Unit → M → W → Prop} {change : M → M} (after : good () (change memory) world) :
    Holds inv bad (Script.remember change : Script M W I E Unit) memory world good := Safe.remember here.upheld after

theorem look {good : A → M → W → Prop} {query : W → A} (after : good (query world) memory world) :
    Holds inv bad (Script.look query : Script M W I E A) memory world good := Safe.look here.upheld after

theorem step {good : Unit → M → W → Prop} {effect : W → W} (kept : inv (effect world))
    (after : good () memory (effect world)) :
    Holds inv bad (Script.step effect : Script M W I E Unit) memory world good := Safe.step here.upheld kept after

theorem replace {good : Unit → M → W → Prop} {ends : I → Replacement} {failure : E} {effect : W → W}
    (replaced : Here inv bad memory (effect world)) (after : good () memory (effect world)) :
    Holds inv bad (Script.replace ends failure effect) memory world good := by
  refine Holds.bind (here.ask fun answer => ?_)
  cases ends answer with
  | done => exact here.step replaced.upheld after
  | refused => exact here.raise failure
  | unsure => exact Holds.bind (here.step replaced.upheld (replaced.raise failure))

end Here
end Postconditions

section Frames
variable {frame : W → W → Prop} [IsPreorder W frame]

/-- Whatever the script has done so far stays within the frame of where it started. -/
def Keeps (frame : W → W → Prop) (script : Script M W I E A) : Prop :=
  ∀ memory world, Safe (frame world) script memory world fun _ _ _ => True

namespace Keeps
variable {next : A → Script M W I E B}

theorem pure {value : A} : Keeps frame (Pure.pure value : Script M W I E A) :=
  fun _ world => Safe.pure (refl world) trivial

theorem raise {raised : E} : Keeps frame (Script.raise raised : Script M W I E A) :=
  fun _ world => Safe.raise (refl world) trivial

theorem outcome {result : Except E A} : Keeps frame (Script.outcome result : Script M W I E A) :=
  fun _ world => Safe.outcome (refl world) trivial

theorem ask : Keeps frame (Script.ask : Script M W I E I) := fun _ world => Safe.ask (refl world) fun _ => trivial

theorem look {query : W → A} : Keeps frame (Script.look query : Script M W I E A) :=
  fun _ world => Safe.look (refl world) trivial

theorem step {effect : W → W} (within : ∀ world, frame world (effect world)) :
    Keeps frame (Script.step effect : Script M W I E Unit) :=
  fun _ world => Safe.step (refl world) (within world) trivial

theorem after {first : W} (keeps : Keeps frame script) (already : frame first world) :
    Safe (frame first) script memory world fun _ _ _ => True :=
  Safe.widen (keeps memory world) fun _ later => IsTrans.trans _ _ _ already later

theorem bind (keeps : Keeps frame script) (rest : ∀ value, Keeps frame (next value)) : Keeps frame (script >>= next) := by
  intro memory world
  refine Safe.bind (Safe.mono (keeps memory world) fun result memory final within _ => ?_)
  cases result with
  | ok value => exact (rest value).after within
  | error raised => trivial

theorem attempt {handler : E → Script M W I E A} (keeps : Keeps frame script) (handled : ∀ raised, Keeps frame (handler raised)) :
    Keeps frame (script.attempt handler) := by
  intro memory world
  refine Safe.attempt (Safe.mono (keeps memory world) fun result memory final within _ => ?_)
  cases result with
  | ok value => trivial
  | error raised => exact (handled raised).after within

omit [IsPreorder W frame] in
theorem ite {condition : Prop} [Decidable condition] {yes no : Script M W I E A} (first : Keeps frame yes)
    (second : Keeps frame no) : Keeps frame (if condition then yes else no) := by
  split
  · exact first
  · exact second

omit [IsPreorder W frame] in
theorem within {bad : M → W → Prop} {good : A → M → W → Prop} (keeps : Keeps frame script)
    (holds : Holds inv bad script memory world good) :
    Holds inv bad script memory world fun value memory final => frame world final ∧ good value memory final := by
  have both := Program.Survives.both holds (keeps memory world)
  refine Program.Survives.widen (Program.Survives.mono both fun answer final held leaves => ?_) fun _ held => held.1
  obtain ⟨result, memory⟩ := answer
  cases result with
  | ok value => exact ⟨held.2, leaves.1⟩
  | error raised => exact leaves.1

omit [IsPreorder W frame] in
theorem holds {bad : M → W → Prop} {good : A → M → W → Prop} (keeps : Keeps frame script)
    (closed : ∀ final, frame world final → inv final)
    (raised : ∀ memory final, frame world final → bad memory final)
    (after : ∀ value memory final, frame world final → good value memory final) :
    Holds inv bad script memory world good := by
  have within : Safe (frame world) script memory world fun _ _ final => frame world final := by
    refine Safe.mono (keeps memory world) fun _ _ final within _ => within
  refine Safe.mono (Safe.widen within closed) fun result memory final _ within => ?_
  cases result with
  | ok value => exact after value memory final within
  | error failure => exact raised memory final within

end Keeps
end Frames

end Script
end C3po.Library
