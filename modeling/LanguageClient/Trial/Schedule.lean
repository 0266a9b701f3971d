/-!
# Running tasks

A system of tasks on a clock of its own.  A task runs until it has to wait; the tasks that can run
stand in a queue, first come, first served.  When the queue is empty, work that is done beside the
tasks is taken up, such as reading files; when there is none either, time passes up to the next
moment at which somebody wakes.
-/

namespace LanguageClient.Trial

/-- A system with states `σ` and tasks `τ`. -/
structure System (σ τ : Type) where
  /-- The tasks, in the order in which they came. -/
  tasks : σ → List τ
  /-- One step of a task; none when it has to wait. -/
  step : σ → τ → Option σ
  /-- Work beside the tasks; none when there is none. -/
  background : σ → Option σ
  now : σ → Nat
  setNow : σ → Nat → σ
  /-- The moments for which somebody waits. -/
  deadlines : σ → List Nat

namespace System

variable {σ τ : Type} [DecidableEq τ] (sys : System σ τ)

/-- Runs one task until it has to wait. -/
def poll (fuel : Nat) (s : σ) (t : τ) : σ :=
  match fuel with
  | 0 => s
  | fuel + 1 =>
    match sys.step s t with
    | some s => poll fuel s t
    | none => s

/-- The tasks that can run. -/
def ready (s : σ) : List τ :=
  (sys.tasks s).filter fun t => (sys.step s t).isSome

/-- Runs the tasks of a queue and those that they make ready. -/
def runQueue (fuel : Nat) (queue : List τ) (s : σ) : σ :=
  match fuel, queue with
  | 0, _ => s
  | fuel + 1, t :: queue =>
    let s := sys.poll 100000 s t
    runQueue fuel (queue ++ (sys.ready s).filter fun t => !queue.contains t) s
  | fuel + 1, [] =>
    match sys.background s with
    | some s => runQueue fuel (sys.ready s) s
    | none => s

/-- Runs everything that can run without time passing. -/
def settle (s : σ) : σ :=
  sys.runQueue 100000 (sys.ready s) s

/-- Lets time pass up to `target`, stopping wherever somebody wakes before it, or at it when it is
    `included`. -/
def runUntil (fuel : Nat) (target : Nat) (included : Bool) (s : σ) : σ :=
  match fuel with
  | 0 => s
  | fuel + 1 =>
    let s := sys.settle s
    let due := (sys.deadlines s).filter fun d =>
      sys.now s < d && (if included then d ≤ target else d < target)
    match due.min? with
    | some d => runUntil fuel target included (sys.setNow s d)
    | none => sys.setNow s target

/-- Lets the given time pass, and then one moment more for what becomes of it. -/
def pass (millis : Nat) (s : σ) : σ :=
  let s := if millis = 0 then s else sys.runUntil 10000 (sys.now s + millis) true s
  sys.runUntil 10000 (sys.now s + 1) false s

end System

end LanguageClient.Trial
