import SharedStream.Load

/-! # Load pools

A bounded number of workers with a queue of loads. A worker without work sleeps until it is woken
for a load; a worker is hired only when no sleeper is left to be woken. If no thread can be had for
it, whoever has submitted the load stands in: when no worker is left it takes the whole queue and
runs the loads itself, one after the other.
-/
namespace SharedStream

inductive Worker where
  | ready
  | asleep
  /-- It was woken, and will look for work. -/
  | woken
  /-- It runs a load. A stand-in has with it what it runs after that. -/
  | loading (l : Load) (rest : Option (List Job))
  /-- It found the pool dropped and nothing to do. -/
  | gone
  /-- Its load panicked. -/
  | dead
  /-- It was counted, but no thread could be had for it. -/
  | denied
  /-- A stand-in, which goes on with the first of the loads it has taken. -/
  | between (rest : List Job)
  /-- A stand-in whose load panicked. The loads that it has not run are dropped. -/
  | fallen (text : String) (rest : List Job)
  deriving DecidableEq, Repr

/-- The loads that it has taken and not begun. -/
def Worker.rest : Worker → List Job
  | .loading _ (some rest) | .between rest | .fallen _ rest => rest
  | .loading _ none | .ready | .asleep | .woken | .gone | .dead | .denied => []

/-- Nothing is left to do for it. -/
def Worker.isOut : Worker → Bool
  | .gone | .dead | .between [] | .fallen _ [] => true
  | .ready | .asleep | .woken | .loading .. | .denied | .between (_ :: _)
  | .fallen _ (_ :: _) => false

/-- What a load's move makes of whoever runs it. -/
def Worker.after (l : Load) : Option (List Job) → LoadMove → Worker
  | rest, .goesOn p => .loading { l with phase := p } rest
  | none, .ends => .ready
  | none, .panics _ => .dead
  | some rest, .ends => .between rest
  | some rest, .panics text => .fallen text rest

structure Pool where
  maxWorkers : Nat
  queue : List Job := []
  /-- The workers hired and not gone, with the dead and with those that were denied a thread and
  have not been subtracted yet. -/
  workers : Nat := 0
  /-- The workers that sleep or were woken and have not looked yet. -/
  idle : Nat := 0
  /-- The sleepers woken for a load that have not looked yet. -/
  wakeups : Nat := 0
  shutDown : Bool := false
  /-- All workers that were ever hired, and the stand-ins. -/
  staff : List Worker := []
  deriving Repr

namespace Pool

def ofLimit (n : Nat) : Pool := { maxWorkers := max 1 n }

/-- The workers that run a load. -/
def active (p : Pool) : Nat := p.workers - p.idle

def wakeOne : List Worker → List Worker
  | [] => []
  | .asleep :: rest => .woken :: rest
  | w :: rest => w :: wakeOne rest

/-- Queues a load, and wakes a sleeper for it or hires a worker if none sleeps and the bound lets
it. -/
def submit (p : Pool) (j : Job) (threaded : Bool) : Pool :=
  let p := { p with queue := p.queue ++ [j] }
  if p.wakeups < p.idle then { p with wakeups := p.wakeups + 1, staff := wakeOne p.staff }
  else if p.workers < p.maxWorkers then
    { p with
      workers := p.workers + 1
      staff := p.staff ++ [if threaded then .ready else .denied] }
  else p

/-- The worker whom a load that is submitted hires without a thread. -/
def denied? (p : Pool) (threaded : Bool) : Option Nat :=
  if threaded || p.wakeups < p.idle || p.maxWorkers ≤ p.workers then none else some p.staff.length

/-- The loads that stand-ins have taken and not begun. -/
def orphans (p : Pool) : List Job := p.staff.flatMap Worker.rest

/-- The loads that nobody has begun. -/
def waiting (p : Pool) : List Job := p.queue ++ p.orphans

def queuedFor (p : Pool) (s : StoreId) : List Job := p.queue.filter (·.store = s)

def dequeue (p : Pool) (s : StoreId) : Pool :=
  { p with queue := p.queue.filter (·.store ≠ s) }

/-- The pool is dropped: all sleepers are woken. Loads that are queued still run as long as a worker
is left. -/
def shutdown (p : Pool) : Pool :=
  { p with
    shutDown := true
    staff := p.staff.map fun w => if w = .asleep then .woken else w }

/-- The pool was dropped, and no worker is left to take a load from the queue. -/
def isAbandoned (p : Pool) : Bool := p.shutDown && p.staff.all Worker.isOut

/-- Worker `i` looks for work: it takes the first load of the queue, or goes if the pool was
dropped, or falls asleep. -/
def look (p : Pool) (i : Nat) : Pool :=
  match p.queue with
  | j :: rest => { p with queue := rest, staff := p.staff.set i (.loading j.start none) }
  | [] =>
    if p.shutDown then { p with workers := p.workers - 1, staff := p.staff.set i .gone }
    else { p with idle := p.idle + 1, staff := p.staff.set i .asleep }

/-- A woken worker is idle no longer. -/
def rouse (p : Pool) : Pool := { p with idle := p.idle - 1, wakeups := p.wakeups - 1 }

def setWorker (p : Pool) (i : Nat) (w : Worker) : Pool := { p with staff := p.staff.set i w }

/-- Worker `i` is counted no more, since it was denied a thread. If it was the only one, its
stand-in takes the queue. -/
def retract (p : Pool) (i : Nat) : Pool :=
  let p := { p with workers := p.workers - 1 }
  if p.workers = 0 then { p with queue := [], staff := p.staff.set i (.between p.queue) }
  else p.setWorker i (.between [])

def describe (p : Pool) : String :=
  "LoadPool \x7b max_workers: " ++ p.maxWorkers.repr ++ ", workers: " ++ p.workers.repr ++
    ", idle: " ++ p.idle.repr ++ ", queued: " ++ p.queue.length.repr ++ " \x7d"

end Pool
end SharedStream
