import Retune.Bench.Command

/-!
# Bench sessions

A session runs commands on one bench with one registry. A controller may go by
several names; it lives on, and keeps its PLL claimed, until its last name and
its last timer are gone.
-/

namespace Retune

structure Supervised where
  controller : Controller Pll
  guard : Guard
  timers : TimerKind

structure Session where
  bench : Bench
  registry : Registry
  bus : MessageBus
  plls : Store String OpenPll
  names : Store String Nat
  controllers : Store Nat Supervised
  nextController : Nat

namespace Session

def start (bench : Bench) : Session :=
  ⟨bench, .empty, .ofPort 0, .empty, .empty, .empty, 0⟩

/-! ## Running programs in a session -/

def onBench {α : Type} (x : StateM Bench α) : StateM Session α := fun s =>
  let (a, bench) := x s.bench
  (a, { s with bench })

def onBench? {α : Type} (x : Fallible Bench α) : Fallible Session α :=
  ExceptT.mk (onBench x.run)

def onRegistry {α : Type} (x : StateT Registry (StateM Bench) α) : StateM Session α := fun s =>
  let ((a, registry), bench) := x s.registry s.bench
  (a, { s with registry, bench })

def onRegistry? {α : Type} (x : Holding Registry Bench α) : Fallible Session α :=
  ExceptT.mk (onRegistry x.run)

def release (g : Guard) : StateM Session Unit :=
  onRegistry (releasePll Bench.host.toEnvironment g)

/-- Whether a name or a timer still refers to a controller. -/
def isNeeded (s : Session) (id : Nat) : Bool :=
  s.names.entries.any (fun e => e.2 == id) || s.bench.timers.refersTo id ||
    (s.bench.worker id).queue.size != 0

def sweep : StateM Session Unit := do
  let s ← get
  s.controllers.entries.forM fun (id, c) =>
    if s.isNeeded id then pure ()
    else do
      modify fun s => { s with controllers := s.controllers.erase id }
      release c.guard

/-! ## Setting the stage -/

def runSetup (c : SetupCommand) : StateM Session Answer :=
  onBench do
    let hw := (← get).hardware
    let setHardware (hw : Hardware) : StateM Bench Answer := do
      modify fun b => { b with hardware := hw }
      return .nothing
    match c with
    | .poke values => setHardware { hw with registers := hw.registers.setAll values }
    | .peek addrs => return .numbers (addrs.map fun a => (hw.register a).toNat)
    | .queueReads addr values =>
      setHardware { hw with queued := hw.queued.set addr (hw.queued.get addr [] ++ values) }
    | .setPhy port lane values =>
      let values := values.map fun (a, v) => (PhyByte.mk port lane a, v)
      setHardware { hw with bytes := hw.bytes.setAll values }
    | .getPhy port lane addrs =>
      return .numbers (addrs.map fun a => (hw.byte ⟨port, lane, a⟩).toNat)
    | .setSram port values =>
      let values := values.map fun (a, v) => (SramWord.mk port a, v)
      setHardware { hw with words := hw.words.setAll values }
    | .getSram port addrs => return .numbers (addrs.map fun a => (hw.word ⟨port, a⟩).toNat)
    | .faults queue => setHardware { hw with faults := queue }
    | .stickResets count => setHardware { hw with stuckResets := count }
    | .stopOnWrite hook =>
      modify fun b => { b with hook? := some hook }
      return .nothing
    | .signal signal value =>
      modify fun b => b.setSignal signal value
      let b ← get
      return .flags [b.sessionStop, b.processStop]

/-! ## Registers and the bus -/

def waitAnswer : Except UInt32 UInt32 → Answer
  | .ok value => .number value.toNat
  | .error value => .timedOut value

def apertureText : String := "Regmap \x7b .. \x7d"

def numbered (ns : List UInt8) : Answer := .numbers (ns.map UInt8.toNat)

def runAccess (bus : MessageBus) (c : AccessCommand) : Fallible Bench Answer := do
  let h := Bench.host
  match c with
  | .readRegister addr => return .number (← h.read addr).toNat
  | .writeRegister addr value =>
    h.write addr value
    return .nothing
  | .updateRegister addr clear set => return .number (← h.reviseBits addr clear set).toNat
  | .awaitBits addr mask value timeoutUs =>
    return waitAnswer (← h.awaitBits addr mask value timeoutUs)
  | .awaitClear addr mask timeoutUs => return waitAnswer (← h.awaitClear addr mask timeoutUs)
  | .describeAperture => return .text apertureText
  | .resolve choice =>
    match choice.output? with
    | some o => return ((← Probe.pllIndex? h o).map fun i => .number i.toNat).getD .nothing
    | none => return .nothing
  | .poweredDkl => return numbered (← Probe.poweredDkl h)
  | .poweredCombo => return numbered (← Probe.poweredCombo h)
  | .active platform => return .texts ((← Probe.adjustableOutputs h platform).map (·.name))
  | .output choice => return (choice.output?.map Answer.output).getD .nothing
  | .readByte lane addr => return .number (← bus.readByte h lane addr).toNat
  | .writeByte lane addr data committed =>
    bus.writeByte h lane addr data committed
    return .nothing
  | .readOrZero lanes addr => return .number (← bus.readOrZero h lanes addr).toNat
  | .writeLanes lanes addr data committed =>
    bus.writeLanes h lanes addr data committed
    return .nothing
  | .modifyLanes lanes addr clear set committed =>
    bus.modifyLanes h lanes addr clear set committed
    return .nothing
  | .readWord lanes addr => return .number (← bus.readWord h lanes addr).toNat
  | .writeWord lanes addr data =>
    bus.writeWord h lanes addr data
    return .nothing

/-! ## PLLs -/

def openSource (source : PllSource) : Fallible Session OpenPll :=
  let h := Bench.host
  onRegistry? <|
    match source with
    | .outputOf choice platform =>
      match choice.output? with
      | some o => Pll.openFor h o platform
      | none => throw .noPll
    | .link pipe => Pll.openLink h pipe
    | .dkl index => Pll.owned h (.dkl (.ofIndex index))
    | .combo index regs => Pll.owned h (.combo (.ofRegisters index regs))
    | .c10 port limits => Pll.owned h (.c10 (.ofBus ⟨port, limits.limits⟩))
    | .c20 port limits => Pll.owned h (.c20 (.ofBus ⟨port, limits.limits⟩))

/-- Opens a PLL and keeps it under a name. One already there is dropped
afterwards. -/
def openPll (name : String) (source : PllSource) : Fallible Session Answer := do
  let p ← openSource source
  let before? := (← get).plls.get? name
  modify fun s => { s with plls := s.plls.set name p }
  if let some before := before? then
    release before.guard
  return .text p.pll.family.name

/-- Puts back what a program left of a PLL. -/
def withPll {α : Type} (name : String) (p : OpenPll) (x : Holding Pll Bench α) :
    Fallible Session α := fun s =>
  let ((r, pll), bench) := x p.pll s.bench
  (r, { s with bench, plls := s.plls.set name { p with pll } })

def runPll (name : String) (p : OpenPll) (c : PllCommand) : Fallible Session Answer := do
  let h := Bench.host
  match c with
  | .capture =>
    withPll name p (Pll.capture h)
    return .nothing
  | .retune target =>
    withPll name p (Pll.takeTarget h target)
    return .nothing
  | .program v =>
    onBench? (p.pll.program h v)
    return .nothing
  | .listing => return .lines (p.pll.listing.map Notice.line)
  | .block => return (p.pll.block?.map fun block => Answer.text block.name).getD .nothing
  | .walk m =>
    let ending ← withPll name p (m.walk h.toEnvironment (Pll.adjustable h).toWalkable .session)
    return .text ending.name

def dropPll (name : String) : StateM Session Bool := do
  match (← get).plls.get? name with
  | none => return false
  | some p =>
    modify fun s => { s with plls := s.plls.erase name }
    release p.guard
    return true

/-! ## Controllers -/

def station (id : Nat) : TimerKind → Station Bench
  | .byHand => Bench.handStation id
  | .ownWorker => Bench.workerStation id

def withController {α : Type} (id : Nat) (c : Supervised) (x : Holding (Controller Pll) Bench α) :
    Fallible Session α := fun s =>
  let ((r, controller), bench) := x c.controller s.bench
  (r, { s with bench, controllers := s.controllers.set id { c with controller } })

/-- Moves a PLL into a controller, which takes a name. -/
def control (name pll : String) (signal : Signal) (timers : TimerKind) : StateM Session Unit := do
  let s ← get
  if let some p := s.plls.get? pll then
    let c : Supervised := ⟨.ofDevice p.pll signal, p.guard, timers⟩
    set { s with
      plls := s.plls.erase pll
      names := s.names.set name s.nextController
      controllers := s.controllers.set s.nextController c
      nextController := s.nextController + 1 }

def cloneController (name source : String) : StateM Session Unit :=
  modify fun s =>
    match s.names.get? source with
    | some id => { s with names := s.names.set name id }
    | none => s

def runController (id : Nat) (c : Supervised) (command : ControlCommand) :
    Fallible Session Answer := do
  let st := station id c.timers
  let dev := Pll.adjustable Bench.host
  match command with
  | .adjust a =>
    withController id c (Controller.adjust st dev a)
    return .nothing
  | .moveTo target shift waitMs =>
    return .text (← withController id c (Controller.moveTo st dev target shift waitMs)).name
  | .walk m => return .text (← withController id c (Controller.walk st dev m)).name
  | .clock => return .clock (← withController id c (Controller.clock dev))
  | .cancel => return .flag (← withController id c (Controller.cancel st dev))
  | .wait =>
    let patience := (← get).bench.patience id
    discard (withController id c (Controller.awaitEnd st dev patience))
    return .nothing
  | .waitAtMost ms => return .flag (← withController id c (Controller.awaitEnd st dev ms))
  | .requestStop =>
    modify fun s => { s with bench := s.bench.setSignal c.controller.signal true }
    return .nothing
  | .program v =>
    withController id c (Controller.program dev v)
    return .nothing
  | .look => return .nothing

/-! ## Timers -/

/-- Runs what a timer carries, if its controller is still there. -/
def runExpiry (e : Expiry) : StateM Session Unit := do
  if let some c := (← get).controllers.get? e.session then
    discard (withController e.session c
      (Controller.expire (station e.session c.timers) (Pll.adjustable Bench.host) e.generation)).run

def forgetTaken (id : Nat) : StateM Session Unit :=
  modify fun s => { s with bench := { s.bench with timers := s.bench.timers.forgetTaken id } }

/-- Fires all pending timers in the order of their ids and answers how many
there were. A timer refers to its controller until it has run. -/
def fireAll : StateM Session Nat := do
  let fired := (← get).bench.timers.pending
  modify fun s => { s with bench := { s.bench with timers := s.bench.timers.takeAll } }
  fired.forM fun timer => do
    runExpiry timer.expiry
    forgetTaken timer.id
    sweep
  return fired.length

def takeTimer (id : Nat) : StateM Session Bool := fun s =>
  let (found, timers) := s.bench.timers.take id
  (found, { s with bench := { s.bench with timers } })

def runTaken (id : Nat) : StateM Session Bool := do
  match (← get).bench.timers.takenExpiry? id with
  | none => return false
  | some e =>
    runExpiry e
    forgetTaken id
    return true

/-! ## Views -/

def controllerView (s : Session) (c : Supervised) : ControllerView :=
  let progress := c.controller.progress
  { phase := progress.phase
    done := progress.done
    found := progress.foundClock
    target := progress.targetClock
    armed? := match c.timers with
      | .byHand => some (s.bench.timers.pending.map fun t => (t.id, t.delayMs))
      | .ownWorker => none
    pll := c.controller.device.view }

def showPll (s : Session) (name : String) : Shown :=
  ((s.plls.get? name).map fun p => Shown.pll p.pll.view).getD .nothing

def supervised? (s : Session) (name : String) : Option Supervised :=
  (s.names.get? name).bind s.controllers.get?

def showController (s : Session) (name : String) : Shown :=
  ((s.supervised? name).map fun c => Shown.controller (s.controllerView c)).getD .nothing

def showControllers (s : Session) : Shown :=
  .controllers <| s.names.entries.filterMap fun (name, id) =>
    (s.controllers.get? id).map fun c => (name, s.controllerView c)

/-! ## Commands -/

/-- Runs a command and answers, together with what is shown after it. -/
def perform (c : Command) : StateM Session (Except Failure Answer × Shown) := do
  match c with
  | .setup c => return (.ok (← runSetup c), .nothing)
  | .access c =>
    let bus := (← get).bus
    return (← onBench (runAccess bus c).run, .nothing)
  | .useBus port limits =>
    modify fun s => { s with bus := ⟨port, limits.limits⟩ }
    return (.ok (.number port.toNat), .nothing)
  | .claimed key => return (.ok (.flag ((← get).registry.isOwned key)), .nothing)
  | .openPll name source =>
    match ← (openPll name source).run with
    | .ok a => return (.ok a, (← get).showPll name)
    | .error e => return (.error e, .nothing)
  | .pll name c =>
    match (← get).plls.get? name with
    | none => return (.error .noPll, .nothing)
    | some p =>
      let r ← (runPll name p c).run
      return (r, (← get).showPll name)
  | .dropPll name => return (.ok (.flag (← dropPll name)), .nothing)
  | .control name pll signal timers =>
    control name pll signal timers
    return (.ok .nothing, (← get).showController name)
  | .cloneController name source =>
    cloneController name source
    return (.ok .nothing, (← get).showController name)
  | .dropController name =>
    let s ← get
    set { s with names := s.names.erase name }
    return (.ok (.flag (s.names.get? name).isSome), .nothing)
  | .controller name c =>
    match (← get).names.get? name, (← get).supervised? name with
    | some id, some supervised =>
      let r ← (runController id supervised c).run
      return (r, (← get).showController name)
    | _, _ => return (.error .noPll, .nothing)
  | .fireAll =>
    let n ← fireAll
    return (.ok (.number n), (← get).showControllers)
  | .takeTimer id =>
    let found ← takeTimer id
    return (.ok (.flag found), (← get).showControllers)
  | .runTaken id =>
    let found ← runTaken id
    return (.ok (.flag found), (← get).showControllers)

def run (c : Command) : StateM Session Reply := do
  onBench (modify fun b => { b with trace := .empty })
  let (answer, shown) ← perform c
  sweep
  return ⟨answer, shown, (← get).bench.trace.inOrder⟩

end Session

end Retune
