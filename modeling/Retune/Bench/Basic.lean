import Retune.Adjustment.Controller
import Retune.Aperture
import Retune.Bench.Trace
import Retune.Timer.Worker

/-!
# The bench

Simulated hardware with stop signals, timers and a trace: a host to run
programs on, and a station for controllers. Timers are either fired by hand or
kept by a worker of the session they belong to, whose clock moves while the
session waits.
-/

namespace Retune

structure Expiry where
  session : Nat
  generation : Nat
  deriving DecidableEq, Repr

instance : Runnable Expiry := ⟨fun _ => []⟩

structure HandTimer where
  id : Nat
  delayMs : UInt64
  expiry : Expiry

/-- Timers fired by hand. Taken ones are no longer pending and have yet to
run. -/
structure HandTimers where
  pending : List HandTimer
  taken : List HandTimer
  nextId : Nat

namespace HandTimers

def idle : HandTimers := ⟨[], [], 0⟩

def arm (t : HandTimers) (delayMs : UInt64) (expiry : Expiry) : Nat × HandTimers :=
  (t.nextId,
    { t with pending := t.pending ++ [⟨t.nextId, delayMs, expiry⟩], nextId := t.nextId + 1 })

def cancel (t : HandTimers) (id : Nat) : Bool × HandTimers :=
  (t.pending.any (·.id == id), { t with pending := t.pending.filter (·.id != id) })

def take (t : HandTimers) (id : Nat) : Bool × HandTimers :=
  match t.pending.find? (·.id == id) with
  | some timer => (true, { (t.cancel id).2 with taken := timer :: t.taken })
  | none => (false, t)

def takeAll (t : HandTimers) : HandTimers := { t with pending := [], taken := t.taken ++ t.pending }

def takenExpiry? (t : HandTimers) (id : Nat) : Option Expiry :=
  (t.taken.find? (·.id == id)).map (·.expiry)

def forgetTaken (t : HandTimers) (id : Nat) : HandTimers :=
  { t with taken := t.taken.filter (·.id != id) }

def refersTo (t : HandTimers) (session : Nat) : Bool :=
  (t.pending ++ t.taken).any fun timer => timer.expiry.session == session

end HandTimers

structure StopHook where
  addr : UInt32
  value? : Option UInt32

def StopHook.matches (k : StopHook) (addr value : UInt32) : Bool :=
  k.addr == addr && k.value?.all (· == value)

/-- The bench. It writes down notices at `listening` and above, and register
accesses if asked to. -/
structure Bench where
  hardware : Hardware
  sessionStop : Bool
  processStop : Bool
  hook? : Option StopHook
  listening? : Option Level
  recordsAccesses : Bool
  timers : HandTimers
  workers : Store Nat (TimerWorker Expiry)
  trace : Trace

namespace Bench

def blank (ports : Nat) : Bench :=
  ⟨.blank ports, false, false, none, none, false, .idle, .empty, .empty⟩

/-! ## The host -/

def signalled (b : Bench) : Signal → Bool
  | .session => b.sessionStop
  | .process => b.processStop

def setSignal (b : Bench) (signal : Signal) (value : Bool) : Bench :=
  match signal with
  | .session => { b with sessionStop := value }
  | .process => { b with processStop := value }

def hear (b : Bench) (n : Notice) : Bench :=
  match b.listening? with
  | some level => if level.hears n.level then { b with trace := b.trace.addLine n.line } else b
  | none => b

def noteAccess (b : Bench) (a : Access) : Bench :=
  if b.recordsAccesses then { b with trace := b.trace.addAccess a } else b

def load (b : Bench) (addr : UInt32) : UInt32 × Bench :=
  let (value, hardware) := b.hardware.read addr
  (value, { b with hardware }.noteAccess (.read addr value))

/-- Writes down what a write did: a bus event, or a write to a plain
register. -/
def noteWrite (b : Bench) (addr value : UInt32) (event? : Option BusEvent) : Bench :=
  match event? with
  | some e => { b with trace := b.trace.addBusEvent e }
  | none =>
    if (BusRegister.ofAddr? b.hardware.ports addr).isSome then b
    else { b with trace := b.trace.addWrite addr value }

def runHook (b : Bench) (addr value : UInt32) : Bench :=
  match b.hook? with
  | some k => if k.matches addr value then { b with sessionStop := true, hook? := none } else b
  | none => b

def store (b : Bench) (addr value : UInt32) : Bench :=
  let (event?, hardware) := b.hardware.write addr value
  (({ b with hardware }.noteAccess (.write addr value)).noteWrite addr value event?).runHook
    addr value

def host : Host Bench where
  stopRequested signal := return (← get).signalled signal
  report n := modify fun b => b.hear n
  pause _ := pure ()
  load addr := modifyGet fun b => b.load addr
  store addr value := modify fun b => b.store addr value

/-! ## Stations of sessions -/

/-- The station of a session with timers fired by hand. They do not go off
while anyone waits. -/
def handStation (session : Nat) : Station Bench where
  toEnvironment := host.toEnvironment
  armTimer delayMs generation := modifyGet fun b =>
    let (id, timers) := b.timers.arm delayMs ⟨session, generation⟩
    (id, { b with timers })
  cancelTimer id := modifyGet fun b =>
    let (found, timers) := b.timers.cancel id
    (found, { b with timers })
  elapse := return []

def worker (b : Bench) (session : Nat) : TimerWorker Expiry := b.workers.get session .fresh

def setWorker (b : Bench) (session : Nat) (w : TimerWorker Expiry) : Bench :=
  { b with workers := b.workers.set session w }

def drain (w : TimerWorker Expiry) : (fuel : Nat) → List (FiredTimer Expiry) × TimerWorker Expiry
  | 0 => ([], w)
  | fuel + 1 =>
    match w.step with
    | (none, w) => ([], w)
    | (some t, w) =>
      let (ts, w) := drain w fuel
      (t :: ts, w)

def elapse (session : Nat) (b : Bench) : List Nat × Bench :=
  let w := (b.worker session).advance 1
  let (fired, w) := drain w w.queue.size
  let b := fired.foldl (fun b t => b.hear (TimerNotice.fired t.timer.id)) (b.setWorker session w)
  (fired.map (·.timer.payload.generation), b)

/-- The station of a session with a timer worker of its own. Its clock also
moves while a walk pauses. -/
def workerStation (session : Nat) : Station Bench where
  toEnvironment := { host.toEnvironment with
    pause := fun ms => modify fun b => b.setWorker session ((b.worker session).advance ms.toNat) }
  armTimer delayMs generation := modifyGet fun b =>
    let (id, w) := (b.worker session).arm delayMs.toNat ⟨session, generation⟩
    (id, (b.setWorker session w).hear (TimerNotice.armed id delayMs))
  cancelTimer id := modifyGet fun b =>
    let (found, w) := (b.worker session).cancel id
    let b := b.setWorker session w
    (found, if found then b.hear (TimerNotice.cancelled id) else b)
  elapse := modifyGet (elapse session)

def patience (b : Bench) (session : Nat) : Nat :=
  let w := b.worker session
  match w.queue.nextDeadline? with
  | some deadline => deadline - w.clock + 1
  | none => 0

end Bench

end Retune
