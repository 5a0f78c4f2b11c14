import Retune.Proofs.Flags

/-!
# What programs do to a host

The programs of the message bus and of every PLL are put together from loading
and storing registers and reporting. What relates two hosts in these three, and
passes from the parts of a program to the whole, relates the programs on them.
-/

namespace Retune

open Relation

section
variable {σ α β : Type}

theorem run_catch (x : Fallible σ α) (f : Failure → Fallible σ α) (s : σ) :
    (tryCatch x f).run s =
      match x.run s with
      | (.ok a, s) => (.ok a, s)
      | (.error e, s) => (f e).run s := by
  simp only [tryCatch, tryCatchThe, MonadExceptOf.tryCatch, ExceptT.tryCatch, ExceptT.mk,
    ExceptT.run, bind, StateT.bind]
  rcases x s with ⟨e | a, s'⟩ <;> rfl

theorem catch_eq (x : Fallible σ α) (f : Failure → Fallible σ α) :
    (tryCatch x f).run = x.run >>= fun r =>
      match r with
      | .ok a => pure (.ok a)
      | .error e => (f e).run := by
  funext s
  rw [run_catch]
  simp only [bind, StateT.bind]
  rcases x.run s with ⟨e | a, s'⟩ <;> rfl

theorem map_eq (f : α → β) (x : Fallible σ α) :
    (f <$> x).run = x.run >>= fun r => pure (r.map f) := by
  funext s
  exact map_run f x s

end

/-- A relation between the runs of a program on two hosts that passes from the
parts of the program to the whole. -/
structure Host.Parallel {ρ σ : Type} (h' : Host ρ) (h : Host σ)
    (R : (α : Type) → StateM ρ α → StateM σ α → Prop) : Prop where
  done : ∀ {α : Type} (a : α), R α (pure a) (pure a)
  chain : ∀ {α β : Type} {x' : StateM ρ α} {x : StateM σ α} {f' : α → StateM ρ β}
    {f : α → StateM σ β}, R α x' x → (∀ a, R β (f' a) (f a)) → R β (x' >>= f') (x >>= f)
  report : ∀ n, R Unit (h'.report n) (h.report n)
  load : ∀ addr, R UInt32 (h'.load addr) (h.load addr)
  store : ∀ addr value, R Unit (h'.store addr value) (h.store addr value)

namespace Host.Parallel
variable {ρ σ γ α β ι : Type} {h' : Host ρ} {h : Host σ}
  {R : (α : Type) → StateM ρ α → StateM σ α → Prop} (hr : Host.Parallel h' h R)
include hr

theorem drop {x' : StateM ρ α} {x : StateM σ α} (hx : R _ x' x) :
    R _ (discard x') (discard x) := by
  show R _ (x' >>= fun _ => pure PUnit.unit) (x >>= fun _ => pure PUnit.unit)
  exact hr.chain hx fun _ => hr.done _

/-! ## Programs that may fail -/

theorem ok (a : α) : R _ (pure a : Fallible ρ α).run (pure a : Fallible σ α).run := hr.done _

theorem fail (e : Failure) : R _ (throw e : Fallible ρ α).run (throw e : Fallible σ α).run :=
  hr.done _

theorem call {x' : StateM ρ α} {x : StateM σ α} (hx : R _ x' x) :
    R _ (liftM x' : Fallible ρ α).run (liftM x : Fallible σ α).run :=
  hr.chain hx fun _ => hr.done _

theorem andThen {x' : Fallible ρ α} {x : Fallible σ α} {f' : α → Fallible ρ β}
    {f : α → Fallible σ β} (hx : R _ x'.run x.run) (hf : ∀ a, R _ (f' a).run (f a).run) :
    R _ (x' >>= f').run (x >>= f).run := by
  show R _ (x'.run >>= ExceptT.bindCont f') (x.run >>= ExceptT.bindCont f)
  refine hr.chain hx fun r => ?_
  cases r with
  | error e => exact hr.done _
  | ok a => exact hf a

theorem handle {x' : Fallible ρ α} {x : Fallible σ α} {f' : Failure → Fallible ρ α}
    {f : Failure → Fallible σ α} (hx : R _ x'.run x.run) (hf : ∀ e, R _ (f' e).run (f e).run) :
    R _ (tryCatch x' f').run (tryCatch x f).run := by
  rw [catch_eq, catch_eq]
  refine hr.chain hx fun r => ?_
  cases r with
  | error e => exact hf e
  | ok a => exact hr.done _

theorem map (f : α → β) {x' : Fallible ρ α} {x : Fallible σ α} (hx : R _ x'.run x.run) :
    R _ (f <$> x').run (f <$> x).run := by
  rw [map_eq, map_eq]
  exact hr.chain hx fun r => hr.done _

theorem each {f' : ι → Fallible ρ PUnit} {f : ι → Fallible σ PUnit}
    (hf : ∀ i, R _ (f' i).run (f i).run) : ∀ l : List ι, R _ (l.forM f').run (l.forM f).run
  | [] => hr.ok _
  | i :: l => hr.andThen (hf i) fun _ => each hf l

theorem reportingFailure (n : Failure → Notice) {x' : Fallible ρ α} {x : Fallible σ α}
    (hx : R _ x'.run x.run) :
    R _ (h'.reportingFailure n x').run (h.reportingFailure n x).run :=
  hr.handle hx fun e => hr.andThen (hr.call (hr.report (n e))) fun _ => hr.fail e

theorem requireFrequency (x : Float) (what : String) :
    R _ (h'.requireFrequency x what).run (h.requireFrequency x what).run := by
  unfold Environment.requireFrequency
  split
  · exact hr.ok _
  · exact hr.andThen (hr.call (hr.report _)) fun _ => hr.fail _

/-! ## Programs that hold a value -/

theorem current (c : γ) :
    R _ ((get : Holding γ ρ γ).run c) ((get : Holding γ σ γ).run c) := hr.done _

theorem replace (d c : γ) :
    R _ ((set d : Holding γ ρ PUnit).run c) ((set d : Holding γ σ PUnit).run c) := hr.done _

theorem change (f : γ → γ) (c : γ) :
    R _ ((modify f : Holding γ ρ PUnit).run c) ((modify f : Holding γ σ PUnit).run c) := hr.done _

theorem holdFail (e : Failure) (c : γ) :
    R _ ((throw e : Holding γ ρ α).run c) ((throw e : Holding γ σ α).run c) := hr.done _

theorem holdCall {x' : StateM ρ α} {x : StateM σ α} (hx : R _ x' x) (c : γ) :
    R _ ((liftM x' : Holding γ ρ α).run c) ((liftM x : Holding γ σ α).run c) :=
  hr.chain hx fun a => hr.done ((.ok a, c) : Except Failure α × γ)

theorem holdTry {x' : Fallible ρ α} {x : Fallible σ α} (hx : R _ x'.run x.run) (c : γ) :
    R _ ((liftM x' : Holding γ ρ α).run c) ((liftM x : Holding γ σ α).run c) :=
  hr.chain hx fun r => hr.done (r, c)

theorem holdThen {x' : Holding γ ρ α} {x : Holding γ σ α} {f' : α → Holding γ ρ β}
    {f : α → Holding γ σ β} {c : γ} (hx : R _ (x'.run c) (x.run c))
    (hf : ∀ a c, R _ ((f' a).run c) ((f a).run c)) :
    R _ ((x' >>= f').run c) ((x >>= f).run c) := by
  show R _ (x'.run c >>= fun r => ExceptT.bindCont f' r.1 r.2)
    (x.run c >>= fun r => ExceptT.bindCont f r.1 r.2)
  refine hr.chain hx fun r => ?_
  rcases r with ⟨e | a, c⟩
  · exact hr.done _
  · exact hf a c

theorem holdEach {f' : ι → Holding γ ρ PUnit} {f : ι → Holding γ σ PUnit}
    (hf : ∀ i c, R _ ((f' i).run c) ((f i).run c)) :
    ∀ (l : List ι) (c : γ), R _ ((l.forM f').run c) ((l.forM f).run c)
  | [], _ => hr.done _
  | i :: l, c => hr.holdThen (hf i c) fun _ => holdEach hf l

/-! ## Registers -/

theorem read (addr : UInt32) : R _ (h'.read addr) (h.read addr) :=
  hr.chain (hr.load addr) fun _ => hr.chain (hr.report _) fun _ => hr.done _

theorem write (addr value : UInt32) : R _ (h'.write addr value) (h.write addr value) :=
  hr.chain (hr.report _) fun _ => hr.store addr value

theorem reviseBits (addr clear set : UInt32) :
    R _ (h'.reviseBits addr clear set) (h.reviseBits addr clear set) :=
  hr.chain (hr.read addr) fun _ => hr.chain (hr.write addr _) fun _ => hr.done _

theorem poll (addr mask value : UInt32) :
    ∀ more, R _ (h'.poll addr mask value more) (h.poll addr mask value more)
  | 0 => by
    refine hr.chain (hr.read addr) fun word => ?_
    split
    · exact hr.done _
    · exact hr.chain (hr.report _) fun _ => hr.done _
  | more + 1 => by
    refine hr.chain (hr.read addr) fun word => ?_
    split
    · exact hr.done _
    · exact poll addr mask value more

end Host.Parallel

/-! ## The message bus -/

namespace Host.Parallel
variable {ρ σ α : Type} {h' : Host ρ} {h : Host σ}
  {R : (α : Type) → StateM ρ α → StateM σ α → Prop} (hr : Host.Parallel h' h R)
  (bus : MessageBus) (lane : UInt8)
include hr

theorem acknowledge : R _ (bus.acknowledge h' lane) (bus.acknowledge h lane) :=
  hr.drop (hr.reviseBits _ _ _)

theorem resetLane : R _ (bus.resetLane h' lane) (bus.resetLane h lane) := by
  refine hr.chain (hr.write _ _) fun _ => hr.chain (hr.poll _ _ _ _) fun waited => ?_
  cases waited with
  | error word => exact hr.report _
  | ok word => exact hr.acknowledge bus lane

theorem abandon (n : BusNotice) (e : Failure) :
    R _ (bus.abandon (α := α) h' lane n e).run (bus.abandon h lane n e).run :=
  hr.andThen (hr.call (hr.report _)) fun _ =>
    hr.andThen (hr.call (hr.resetLane bus lane)) fun _ => hr.fail e

theorem awaitIdle (reason : IdleReason) :
    R _ (bus.awaitIdle h' lane reason).run (bus.awaitIdle h lane reason).run := by
  refine hr.andThen (hr.call (hr.poll _ _ _ _)) fun waited => ?_
  cases waited with
  | error word => exact hr.abandon bus lane _ _
  | ok word => exact hr.ok _

theorem awaitResponse (expected : BusResponse) :
    R _ (bus.awaitResponse h' lane expected).run (bus.awaitResponse h lane expected).run := by
  refine hr.andThen (hr.call (hr.poll _ _ _ _)) fun waited => ?_
  cases waited with
  | error status => exact hr.abandon bus lane _ _
  | ok status =>
    dsimp only
    split
    · exact hr.abandon bus lane _ _
    · split
      · exact hr.ok _
      · exact hr.abandon bus lane _ _

theorem attemptRead (addr : UInt16) :
    R _ (bus.attemptRead h' lane addr).run (bus.attemptRead h lane addr).run := by
  refine hr.andThen (hr.awaitIdle bus lane _) fun _ => ?_
  refine hr.andThen (hr.call (hr.write _ _)) fun _ => ?_
  refine hr.andThen (hr.awaitResponse bus lane _) fun _ => ?_
  exact hr.andThen (hr.call (hr.acknowledge bus lane)) fun _ => hr.ok _

theorem awaitWritten (committed : Bool) :
    R _ (bus.awaitWritten h' lane committed).run (bus.awaitWritten h lane committed).run := by
  unfold MessageBus.awaitWritten
  split
  · exact hr.map _ (hr.awaitResponse bus lane _)
  · refine hr.andThen (hr.call (hr.read _)) fun status => ?_
    split
    · exact hr.abandon bus lane _ _
    · exact hr.ok _

theorem attemptWrite (addr : UInt16) (value : UInt8) (committed : Bool) :
    R _ (bus.attemptWrite h' lane addr value committed).run
      (bus.attemptWrite h lane addr value committed).run := by
  refine hr.andThen (hr.awaitIdle bus lane _) fun _ => ?_
  refine hr.andThen (hr.call (hr.write _ _)) fun _ => ?_
  refine hr.andThen (hr.awaitIdle bus lane _) fun _ => ?_
  refine hr.andThen (hr.awaitWritten bus lane committed) fun _ => ?_
  exact hr.call (hr.acknowledge bus lane)

theorem attempts {x' : Fallible ρ α} {x : Fallible σ α} (hx : R _ x'.run x.run)
    (n : Nat → Failure → Notice) : ∀ (left made : Nat) (last : Failure),
      R _ (MessageBus.attempts h' x' n made last left).run
        (MessageBus.attempts h x n made last left).run
  | 0, _, last => hr.fail last
  | left + 1, made, _ =>
    hr.handle hx fun e =>
      hr.andThen (hr.call (hr.report _)) fun _ => attempts hx n left (made + 1) e

theorem retrying (direction : Direction) (addr : UInt16) {x' : Fallible ρ α} {x : Fallible σ α}
    (hx : R _ x'.run x.run) :
    R _ (bus.retrying h' lane direction addr x').run (bus.retrying h lane direction addr x).run :=
  hr.reportingFailure _ (hr.attempts hx _ _ _ _)

theorem readByte (addr : UInt16) :
    R _ (bus.readByte h' lane addr).run (bus.readByte h lane addr).run :=
  hr.retrying bus lane _ _ (hr.andThen (hr.attemptRead bus lane addr) fun _ =>
    hr.andThen (hr.call (hr.report _)) fun _ => hr.ok _)

theorem writeByte (addr : UInt16) (value : UInt8) (committed : Bool) :
    R _ (bus.writeByte h' lane addr value committed).run
      (bus.writeByte h lane addr value committed).run :=
  hr.retrying bus lane _ _ (hr.andThen (hr.attemptWrite bus lane addr value committed) fun _ =>
    hr.call (hr.report _))

theorem writeLanes (lanes : LaneSet) (addr : UInt16) (value : UInt8) (committed : Bool) :
    R _ (bus.writeLanes h' lanes addr value committed).run
      (bus.writeLanes h lanes addr value committed).run :=
  hr.each (fun lane => hr.writeByte bus lane addr value committed) _

theorem modifyLanes (lanes : LaneSet) (addr : UInt16) (clear set : UInt8) (committed : Bool) :
    R _ (bus.modifyLanes h' lanes addr clear set committed).run
      (bus.modifyLanes h lanes addr clear set committed).run := by
  refine hr.each (fun lane => hr.andThen (hr.readByte bus lane addr) fun old => ?_) _
  dsimp only
  split
  · exact hr.writeByte bus lane addr _ committed
  · exact hr.ok _

theorem readWord (lanes : LaneSet) (addr : UInt16) :
    R _ (bus.readWord h' lanes addr).run (bus.readWord h lanes addr).run := by
  refine hr.andThen (hr.writeLanes bus lanes _ _ _) fun _ => ?_
  refine hr.andThen (hr.writeLanes bus lanes _ _ _) fun _ => ?_
  refine hr.andThen (hr.readByte bus _ _) fun _ => ?_
  exact hr.andThen (hr.readByte bus _ _) fun _ => hr.ok _

theorem writeWord (lanes : LaneSet) (addr value : UInt16) :
    R _ (bus.writeWord h' lanes addr value).run (bus.writeWord h lanes addr value).run := by
  refine hr.andThen (hr.writeLanes bus lanes _ _ _) fun _ => ?_
  refine hr.andThen (hr.writeLanes bus lanes _ _ _) fun _ => ?_
  refine hr.andThen (hr.writeLanes bus lanes _ _ _) fun _ => ?_
  exact hr.writeLanes bus lanes _ _ _

end Host.Parallel

/-! ## PLLs -/

namespace Host.Parallel
variable {ρ σ : Type} {h' : Host ρ} {h : Host σ}
  {R : (α : Type) → StateM ρ α → StateM σ α → Prop} (hr : Host.Parallel h' h R)
include hr

theorem captureCombo (p : ComboPll) :
    R _ ((ComboPll.capture h').run p) ((ComboPll.capture h).run p) := by
  refine hr.holdThen (hr.current p) fun p c => ?_
  refine hr.holdThen (hr.holdCall (hr.read _) c) fun _ c => ?_
  refine hr.holdThen (hr.holdCall (hr.read _) c) fun _ c => ?_
  exact hr.holdThen (hr.replace _ c) fun _ => hr.holdCall (hr.report _)

theorem captureLink (p : LinkRatio) :
    R _ ((LinkRatio.capture h').run p) ((LinkRatio.capture h).run p) := by
  refine hr.holdThen (hr.current p) fun p c => ?_
  refine hr.holdThen (hr.holdCall (hr.read _) c) fun _ c => ?_
  refine hr.holdThen (hr.holdCall (hr.read _) c) fun _ c => ?_
  exact hr.replace _ c

theorem captureDkl (p : DklPll) :
    R _ ((DklPll.capture h').run p) ((DklPll.capture h).run p) := by
  have hregister (r : DklRegister) (p : DklPll) :
      R _ ((DklPll.captureRegister h' r).run p) ((DklPll.captureRegister h r).run p) := by
    refine hr.holdThen (hr.current p) fun p c => ?_
    refine hr.holdThen (hr.holdCall (hr.read _) c) fun word c => ?_
    dsimp only
    split
    · refine hr.holdThen (hr.holdCall (hr.report _) c) fun _ c => ?_
      exact hr.holdThen (hr.holdFail _ c) fun _ => hr.replace _
    · exact hr.replace _ c
  refine hr.holdThen (hr.change _ p) fun _ c => ?_
  exact hr.holdThen (hr.holdEach hregister _ c) fun _ => hr.change _

theorem captureC10 (p : C10Pll) :
    R _ ((C10Pll.capture h').run p) ((C10Pll.capture h).run p) := by
  have hbyte (i : Fin 20) (p : C10Pll) :
      R _ ((C10Pll.captureByte h' i).run p) ((C10Pll.captureByte h i).run p) := by
    refine hr.holdThen (hr.current p) fun p c => ?_
    refine hr.holdThen (hr.holdTry (hr.readByte p.bus _ _) c) fun _ c => ?_
    exact hr.holdThen (hr.replace _ c) fun _ => hr.holdCall (hr.report _)
  refine hr.holdThen (hr.change _ p) fun _ c => ?_
  exact hr.holdThen (hr.holdEach hbyte _ c) fun _ => hr.change _

theorem captureWord (slot : C20Pll → Slot UInt16) (put : Slot UInt16 → C20Pll → C20Pll)
    (addr : UInt32) (p : C20Pll) :
    R _ ((C20Pll.captureWord h' slot put addr).run p)
      ((C20Pll.captureWord h slot put addr).run p) := by
  refine hr.holdThen (hr.change _ p) fun _ c => ?_
  refine hr.holdThen (hr.current c) fun p c => ?_
  exact hr.holdThen (hr.holdTry (hr.readWord p.bus _ _) c) fun _ => hr.change _

theorem captureC20 (p : C20Pll) :
    R _ ((C20Pll.capture h').run p) ((C20Pll.capture h).run p) := by
  refine hr.holdThen (hr.change _ p) fun _ c => ?_
  refine hr.holdThen (hr.current c) fun p c => ?_
  refine hr.holdThen (hr.holdTry (hr.readByte p.bus _ _) c) fun _ c => ?_
  refine hr.holdThen (hr.change _ c) fun _ c => ?_
  refine hr.holdThen (hr.holdEach (fun _ => hr.captureWord _ _ _) _ c) fun _ c => ?_
  refine hr.holdThen (hr.holdEach (fun _ => hr.captureWord _ _ _) _ c) fun _ c => ?_
  refine hr.holdThen (hr.current c) fun _ c => ?_
  refine hr.holdThen (hr.change _ c) fun _ c => ?_
  refine hr.holdThen (hr.holdEach (fun _ => hr.captureWord _ _ _) _ c) fun _ c => ?_
  refine hr.holdThen (hr.captureWord _ _ _ c) fun _ c => ?_
  refine hr.holdThen (hr.captureWord _ _ _ c) fun _ c => ?_
  refine hr.holdThen (hr.current c) fun _ c => ?_
  exact hr.holdThen (hr.replace _ c) fun _ => hr.holdCall (hr.report _)

theorem capture (p : Pll) : R _ (Pll.capture h' p) (Pll.capture h p) := by
  cases p with
  | combo p => exact hr.chain (hr.captureCombo p) fun x => hr.done (x.1, Pll.combo x.2)
  | dkl p => exact hr.chain (hr.captureDkl p) fun x => hr.done (x.1, Pll.dkl x.2)
  | c10 p => exact hr.chain (hr.captureC10 p) fun x => hr.done (x.1, Pll.c10 x.2)
  | c20 p => exact hr.chain (hr.captureC20 p) fun x => hr.done (x.1, Pll.c20 x.2)
  | dpMn p => exact hr.chain (hr.captureLink p) fun x => hr.done (x.1, Pll.dpMn x.2)

theorem retune (p : Pll) (clock : Float) : R _ (p.retune h' clock).run (p.retune h clock).run := by
  rw [Pll.retune_eq, Pll.retune_eq]
  cases p with
  | combo p =>
    refine hr.map _ (hr.andThen (hr.requireFrequency _ _) fun _ => ?_)
    exact hr.andThen (hr.call (hr.report _)) fun _ => hr.ok _
  | dkl p =>
    refine hr.map _ (hr.andThen (hr.requireFrequency _ _) fun _ => ?_)
    dsimp only
    split
    · refine hr.andThen (hr.call (hr.report _)) fun _ => hr.andThen (hr.fail _) fun _ => ?_
      exact hr.andThen (hr.call (hr.report _)) fun _ => hr.ok _
    · exact hr.andThen (hr.call (hr.report _)) fun _ => hr.ok _
  | c10 p =>
    refine hr.map _ (hr.andThen (hr.requireFrequency _ _) fun _ => ?_)
    exact hr.andThen (hr.call (hr.report _)) fun _ => hr.ok _
  | c20 p =>
    refine hr.map _ (hr.andThen (hr.requireFrequency _ _) fun _ => ?_)
    have hretuned (n : PllNotice) (q : C20Pll) :
        R _ (do h'.report n; return q : Fallible ρ C20Pll).run
          (do h.report n; return q : Fallible σ C20Pll).run :=
      hr.andThen (hr.call (hr.report _)) fun _ => hr.ok _
    dsimp only
    split
    · refine hr.andThen (hr.call (hr.report _)) fun _ => ?_
      split
      · exact hr.andThen (hr.call (hr.report _)) fun _ => hretuned _ _
      · exact hretuned _ _
    · split
      · exact hr.andThen (hr.call (hr.report _)) fun _ => hretuned _ _
      · exact hretuned _ _
  | dpMn p => exact hr.map _ (hr.andThen (hr.requireFrequency _ _) fun _ => hr.ok _)

theorem takeTarget (p : Pll) (target : Float) :
    R _ ((Pll.takeTarget h' target).run p) ((Pll.takeTarget h target).run p) := by
  have hretuned := hr.retune p target
  rw [Pll.retune_eq, Pll.retune_eq] at hretuned
  rw [(p.settles_takeTarget h' target).eq, (p.settles_takeTarget h target).eq]
  refine hr.chain hretuned fun r => ?_
  cases r <;> exact hr.done _

theorem program (p : Pll) (v : Version) : R _ (p.program h' v).run (p.program h v).run := by
  cases p with
  | combo p => exact hr.andThen (hr.call (hr.write _ _)) fun _ => hr.call (hr.write _ _)
  | dkl p => exact hr.each (fun r => hr.call (hr.write _ _)) _
  | c10 p =>
    refine hr.andThen (hr.modifyLanes p.bus _ _ _ _ _) fun _ => ?_
    refine hr.andThen (hr.modifyLanes p.bus _ _ _ _ _) fun _ => ?_
    refine hr.andThen (hr.modifyLanes p.bus _ _ _ _ _) fun _ => ?_
    refine hr.andThen (hr.writeByte p.bus _ _ _ _) fun _ => ?_
    refine hr.andThen (hr.writeByte p.bus _ _ _ _) fun _ => ?_
    exact hr.modifyLanes p.bus _ _ _ _ _
  | c20 p =>
    refine hr.andThen (hr.writeWord p.bus _ _ _) fun _ => ?_
    exact hr.andThen (hr.writeWord p.bus _ _ _) fun _ => hr.writeWord p.bus _ _ _
  | dpMn p => exact hr.andThen (hr.call (hr.write _ _)) fun _ => hr.call (hr.write _ _)

end Host.Parallel

/-! ## What is done to the world -/

section
variable {σ α : Type}

inductive Host.Act (h : Host σ) : σ → σ → Prop where
  | load {s} (addr : UInt32) : Act h s (h.load addr s).2
  | store {s} (addr value : UInt32) : Act h s (h.store addr value s).2
  | report {s} (n : Notice) : Act h s (h.report n s).2

/-- `x` changes the world by actions on the host and by nothing else. -/
def Acts (h : Host σ) (x : StateM σ α) : Prop := ∀ s, ReflTransGen h.Act s (x s).2

theorem parallel_acts (h : Host σ) : h.Parallel h fun _ _ x => Acts h x where
  done _ _ := .refl
  chain hx hf s := (hx s).trans (hf _ _)
  report n _ := .single (.report n)
  load addr _ := .single (.load addr)
  store addr value _ := .single (.store addr value)

namespace Pll
variable {h : Host σ}

theorem acts_capture (p : Pll) : Acts h (Pll.capture h p) := (parallel_acts h).capture p

theorem acts_retune (p : Pll) (clock : Float) : Acts h (p.retune h clock).run :=
  (parallel_acts h).retune p clock

theorem acts_program (p : Pll) (v : Version) : Acts h (p.program h v).run :=
  (parallel_acts h).program p v

end Pll

end

/-! ## How attempts run -/

section
variable {σ α : Type} {h : Host σ}

theorem MessageBus.attempts_run (attempt : Fallible σ α) (n : Nat → Failure → Notice) (made : Nat)
    (last : Failure) (left : Nat) (s : σ) :
    (attempts h attempt n made last (left + 1)).run s =
      match attempt.run s with
      | (.ok a, s) => (.ok a, s)
      | (.error e, s) =>
        (attempts h attempt n (made + 1) e left).run (h.report (n (made + 1) e) s).2 := by
  show (tryCatch attempt _).run s = _
  rw [run_catch]
  rcases attempt.run s with ⟨e | a, s'⟩ <;> rfl

theorem MessageBus.retrying_run (bus : MessageBus) (lane : UInt8) (direction : Direction)
    (addr : UInt16) (attempt : Fallible σ α) (s : σ) :
    (bus.retrying h lane direction addr attempt).run s =
      match (attempts h attempt (fun i e => BusNotice.attemptFailed bus.port direction addr i e) 0
        (bus.timeout lane) bus.limits.retries.toNat).run s with
      | (.ok a, s) => (.ok a, s)
      | (.error e, s) =>
        (.error e, (h.report (BusNotice.gaveUp bus.port direction addr bus.limits.retries) s).2) :=
  Environment.reportingFailure_run h.toEnvironment _ _ s

end

end Retune
