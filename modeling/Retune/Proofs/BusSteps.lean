import Retune.Proofs.Accesses
import Retune.Proofs.LateStatus

/-!
# The steps of a call on one lane

A call of the message bus reports, loads registers, and stores to the two
registers of its lane: resets, status bits to clear, and transactions of one
command. What all of these steps keep, the call keeps, and other lanes keep
what they have.
-/

namespace Retune

open Relation

variable {σ α β : Type}

/-- The stores of a call that makes transactions of the command `k` on a lane. -/
inductive LaneWrite (l : BusLane) (k : BusCommand) : UInt32 → UInt32 → Prop where
  | reset : LaneWrite l k l.control BusWord.reset
  | clear (w : UInt32) : LaneWrite l k l.status w
  | request (addr : UInt16) (value : UInt8) : LaneWrite l k l.control (BusWord.request k addr value)

inductive LaneStep (h : Host σ) (l : BusLane) (k : BusCommand) : σ → σ → Prop where
  | report (n : Notice) (s : σ) : LaneStep h l k s (h.report n s).2
  | load {addr : UInt32} (haddr : addr = l.control ∨ addr = l.status) (s : σ) :
    LaneStep h l k s (h.load addr s).2
  | store {addr value : UInt32} (hw : LaneWrite l k addr value) (s : σ) :
    LaneStep h l k s (h.store addr value s).2

/-- Wherever `x` starts, it leads along steps of `T`. -/
def Leads (T : σ → σ → Prop) (x : StateM σ α) : Prop := ∀ s, ReflTransGen T s (x s).2

theorem Leads.gives {T : σ → σ → Prop} {x : Fallible σ α} (hx : Leads T x.run) (s : σ) :
    Gives x.run s (upon (fun _ => ReflTransGen T s) (ReflTransGen T s)) := by
  have hsteps := hx s
  unfold Gives
  rcases hrun : x.run s with ⟨e | a, s'⟩ <;> rw [hrun] at hsteps <;> exact hsteps

/-! ## Programs -/

section
variable {T : σ → σ → Prop}

theorem leads_pure (a : α) : Leads T (pure a) := fun _ => .refl

theorem leads_bind {x : StateM σ α} {f : α → StateM σ β} (hx : Leads T x)
    (hf : ∀ a, Leads T (f a)) : Leads T (x >>= f) :=
  fun s => (hx s).trans (hf (x s).1 (x s).2)

theorem leads_call {x : StateM σ α} (hx : Leads T x) : Leads T (liftM x : Fallible σ α).run := hx

theorem leads_then {x : Fallible σ α} {f : α → Fallible σ β} (hx : Leads T x.run)
    (hf : ∀ a, Leads T (f a).run) : Leads T (x >>= f).run := by
  intro s
  have hfirst := hx s
  rw [run_then]
  rcases hrun : x.run s with ⟨e | a, s'⟩ <;> rw [hrun] at hfirst
  · exact hfirst
  · exact hfirst.trans (hf a s')

theorem leads_catch {x : Fallible σ α} {f : Failure → Fallible σ α} (hx : Leads T x.run)
    (hf : ∀ e, Leads T (f e).run) : Leads T (tryCatch x f).run := by
  intro s
  have hfirst := hx s
  rw [run_catch]
  rcases hrun : x.run s with ⟨e | a, s'⟩ <;> rw [hrun] at hfirst
  · exact hfirst.trans (hf e s')
  · exact hfirst

theorem leads_discard {x : Fallible σ α} (hx : Leads T x.run) : Leads T (discard x).run := by
  intro s
  have hmap : ((discard x).run s).2 = (x.run s).2 :=
    congrArg Prod.snd (map_run (fun _ => PUnit.unit) x s)
  rw [hmap]
  exact hx s

end

/-! ## The parts of a call -/

section
variable (h : Host σ) (bus : MessageBus) (lane : UInt8) (k : BusCommand)

theorem leads_report (l : BusLane) (n : Notice) : Leads (LaneStep h l k) (h.report n) :=
  fun s => .single (.report n s)

theorem leads_read {l : BusLane} {addr : UInt32} (haddr : addr = l.control ∨ addr = l.status) :
    Leads (LaneStep h l k) (h.read addr) :=
  leads_bind (fun s => .single (.load haddr s)) fun _ =>
    leads_bind (leads_report h k l _) fun _ => leads_pure _

theorem leads_write {l : BusLane} {addr value : UInt32} (hw : LaneWrite l k addr value) :
    Leads (LaneStep h l k) (h.write addr value) :=
  leads_bind (leads_report h k l _) fun _ s => .single (.store hw s)

theorem leads_poll {l : BusLane} {addr : UInt32} (haddr : addr = l.control ∨ addr = l.status)
    (mask value : UInt32) : ∀ more, Leads (LaneStep h l k) (h.poll addr mask value more)
  | 0 => by
    refine leads_bind (leads_read h k haddr) fun word => ?_
    split
    · exact leads_pure _
    · exact leads_bind (leads_report h k l _) fun _ => leads_pure _
  | more + 1 => by
    refine leads_bind (leads_read h k haddr) fun word => ?_
    split
    · exact leads_pure _
    · exact leads_poll haddr mask value more

theorem leads_acknowledge : Leads (LaneStep h (bus.laneOf lane) k) (bus.acknowledge h lane) := by
  have hrevise (clear set : UInt32) :
      Leads (LaneStep h (bus.laneOf lane) k) (h.reviseBits (bus.laneOf lane).status clear set) :=
    leads_bind (leads_read h k (.inr rfl)) fun _ =>
      leads_bind (leads_write h k (.clear _)) fun _ => leads_pure _
  exact hrevise 0 (BusWord.responseReady ||| BusWord.errorSet)

theorem leads_resetLane : Leads (LaneStep h (bus.laneOf lane) k) (bus.resetLane h lane) := by
  refine leads_bind (leads_write h k .reset) fun _ => ?_
  refine leads_bind (leads_poll h k (.inl rfl) _ _ _) fun waited => ?_
  cases waited with
  | error word => exact leads_report h k _ _
  | ok word => exact leads_acknowledge h bus lane k

theorem leads_abandon (n : BusNotice) (e : Failure) :
    Leads (LaneStep h (bus.laneOf lane) k) (bus.abandon (α := α) h lane n e).run :=
  leads_then (leads_call (leads_report h k _ _)) fun _ =>
    leads_then (leads_call (leads_resetLane h bus lane k)) fun _ => leads_pure _

theorem leads_awaitIdle (reason : IdleReason) :
    Leads (LaneStep h (bus.laneOf lane) k) (bus.awaitIdle h lane reason).run := by
  refine leads_then (leads_call (leads_poll h k (.inl rfl) _ _ _)) fun waited => ?_
  cases waited with
  | error word => exact leads_abandon h bus lane k _ _
  | ok word => exact leads_pure _

theorem leads_awaitResponse (expected : BusResponse) :
    Leads (LaneStep h (bus.laneOf lane) k) (bus.awaitResponse h lane expected).run := by
  refine leads_then (leads_call (leads_poll h k (.inr rfl) _ _ _)) fun waited => ?_
  cases waited with
  | error status => exact leads_abandon h bus lane k _ _
  | ok status =>
    dsimp only
    split
    · exact leads_abandon h bus lane k _ _
    · split
      · exact leads_pure _
      · exact leads_abandon h bus lane k _ _

theorem leads_attemptRead (addr : UInt16) :
    Leads (LaneStep h (bus.laneOf lane) .read) (bus.attemptRead h lane addr).run := by
  refine leads_then (leads_awaitIdle h bus lane _ _) fun _ => ?_
  refine leads_then (leads_call (leads_write h _ (.request addr 0))) fun _ => ?_
  refine leads_then (leads_awaitResponse h bus lane _ _) fun _ => ?_
  exact leads_then (leads_call (leads_acknowledge h bus lane _)) fun _ => leads_pure _

theorem leads_awaitWritten (committed : Bool) :
    Leads (LaneStep h (bus.laneOf lane) k) (bus.awaitWritten h lane committed).run := by
  unfold MessageBus.awaitWritten
  split
  · exact leads_discard (leads_awaitResponse h bus lane k _)
  · refine leads_then (leads_call (leads_read h k (.inr rfl))) fun status => ?_
    split
    · exact leads_abandon h bus lane k _ _
    · exact leads_pure _

end

def writeCommand (committed : Bool) : BusCommand :=
  if committed then .writeCommitted else .writeUncommitted

section
variable (h : Host σ) (bus : MessageBus) (lane : UInt8)

theorem leads_attemptWrite (addr : UInt16) (value : UInt8) (committed : Bool) :
    Leads (LaneStep h (bus.laneOf lane) (writeCommand committed))
      (bus.attemptWrite h lane addr value committed).run := by
  refine leads_then (leads_awaitIdle h bus lane _ _) fun _ => ?_
  refine leads_then (leads_call (leads_write h _ (.request addr value))) fun _ => ?_
  refine leads_then (leads_awaitIdle h bus lane _ _) fun _ => ?_
  refine leads_then (leads_awaitWritten h bus lane _ _) fun _ => ?_
  exact leads_call (leads_acknowledge h bus lane _)

/-! ## Calls -/

variable {k : BusCommand}

theorem leads_attempts {attempt : Fallible σ α}
    (ha : Leads (LaneStep h (bus.laneOf lane) k) attempt.run) (n : Nat → Failure → Notice) :
    ∀ (left made : Nat) (last : Failure),
      Leads (LaneStep h (bus.laneOf lane) k) (MessageBus.attempts h attempt n made last left).run
  | 0, _, _ => leads_pure _
  | left + 1, made, _ =>
    leads_catch ha fun e => leads_then (leads_call (leads_report h k _ _)) fun _ =>
      leads_attempts ha n left (made + 1) e

theorem leads_retrying {attempt : Fallible σ α}
    (ha : Leads (LaneStep h (bus.laneOf lane) k) attempt.run) (direction : Direction)
    (addr : UInt16) :
    Leads (LaneStep h (bus.laneOf lane) k) (bus.retrying h lane direction addr attempt).run :=
  leads_catch (leads_attempts h bus lane ha _ _ _ _) fun _ =>
    leads_then (leads_call (leads_report h k _ _)) fun _ => leads_pure _

theorem leads_readByte (addr : UInt16) :
    Leads (LaneStep h (bus.laneOf lane) .read) (bus.readByte h lane addr).run :=
  leads_retrying h bus lane (leads_then (leads_attemptRead h bus lane addr) fun _ =>
    leads_then (leads_call (leads_report h _ _ _)) fun _ => leads_pure _) _ _

theorem leads_writeByte (addr : UInt16) (value : UInt8) (committed : Bool) :
    Leads (LaneStep h (bus.laneOf lane) (writeCommand committed))
      (bus.writeByte h lane addr value committed).run :=
  leads_retrying h bus lane (leads_then (leads_attemptWrite h bus lane addr value committed)
    fun _ => leads_call (leads_report h _ _ _)) _ _

end

/-! ## Accesses of a call -/

def Access.isStore (control : UInt32) : Access → Bool
  | .write addr value => addr == control && value &&& BusWord.pending != 0 &&
    BusWord.command.get value != BusCommand.read.code
  | .read .. => false

theorem Access.isStore_of_ne {a : Access} {control : UInt32} (h : a.addr ≠ control) :
    a.isStore control = false := by
  cases a with
  | read => rfl
  | write addr value => simp [isStore, show addr ≠ control from h]

inductive LaneAccess (l : BusLane) (k : BusCommand) : Access → Prop where
  | read {addr : UInt32} (haddr : addr = l.control ∨ addr = l.status) (value : UInt32) :
    LaneAccess l k (.read addr value)
  | write {addr value : UInt32} (hw : LaneWrite l k addr value) : LaneAccess l k (.write addr value)

section
variable {h : Host σ} {l : BusLane} {k : BusCommand} {a : Access}

theorem LaneAccess.addr_eq (ha : LaneAccess l k a) : a.addr = l.control ∨ a.addr = l.status := by
  cases ha with
  | read haddr => exact haddr
  | write hw =>
    cases hw with
    | reset | request => exact .inl rfl
    | clear => exact .inr rfl

theorem LaneAccess.isStore (ha : LaneAccess l .read a) : a.isStore l.control = false := by
  cases ha with
  | read => rfl
  | write hw =>
    cases hw with
    | reset =>
      have hidle : (BusWord.reset &&& BusWord.pending != 0) = false := by decide
      simp [Access.isStore, hidle]
    | clear w => exact Access.isStore_of_ne (statusRegister_ne l.port l.lane)
    | request addr value => simp [Access.isStore, BusWord.command_request]

theorem logged_accesses {r r' : Logged σ} (hsteps : ReflTransGen (LaneStep h.logged l k) r r') :
    ∃ new, r'.accesses = new ++ r.accesses ∧ ∀ a ∈ new, LaneAccess l k a := by
  induction hsteps with
  | refl => exact ⟨[], rfl, nofun⟩
  | @tail r₁ _ _ hstep ih =>
    obtain ⟨new, hnew, hlane⟩ := ih
    cases hstep with
    | report n => exact ⟨new, hnew, hlane⟩
    | load haddr =>
      refine ⟨.read _ (h.load _ r₁.world).1 :: new, congrArg (List.cons _) hnew, ?_⟩
      exact List.forall_mem_cons.mpr ⟨.read haddr _, hlane⟩
    | store hw =>
      refine ⟨.write _ _ :: new, congrArg (List.cons _) hnew, ?_⟩
      exact List.forall_mem_cons.mpr ⟨.write hw, hlane⟩

end

/-! ## PHYs seen through a log -/

def MemoryPhy.logged {h : Host σ} (phy : MemoryPhy h) : MemoryPhy h.logged where
  isLane := phy.isLane
  sound r := phy.sound r.world
  prompt r := phy.prompt r.world
  lane r := phy.lane r.world
  memory r := phy.memory r.world
  report n hs := ⟨(phy.report n hs).sound, (phy.report n hs).prompt, (phy.report n hs).lane,
    (phy.report n hs).memory⟩
  load addr hs := ⟨(phy.load addr hs).sound, (phy.load addr hs).prompt, (phy.load addr hs).lane,
    (phy.load addr hs).memory⟩
  loadStatus hs hl := phy.loadStatus hs hl
  loadError hs hl hp := phy.loadError hs hl hp
  loadReset hs hl := phy.loadReset hs hl
  loadPending hs hl := phy.loadPending hs hl
  storeReset hs hl :=
    have hstore := phy.storeReset hs hl
    ⟨⟨hstore.1.sound, hstore.1.prompt, hstore.1.lane⟩, hstore.2⟩
  storeStatus w hs hl :=
    have hstore := phy.storeStatus w hs hl
    ⟨⟨hstore.1.sound, hstore.1.prompt, hstore.1.lane⟩, hstore.2⟩
  storeRequest c addr value hs hl :=
    have hstore := phy.storeRequest c addr value hs hl
    ⟨⟨hstore.1.sound, hstore.1.prompt, hstore.1.lane⟩, hstore.2⟩

/-- A PHY of which is known that its lanes do not make each other late. -/
structure LanePhy (h : Host σ) extends LatePhy h where
  othersLate : ∀ {s l l' k addr value}, sound s → isLane l → isLane l' → l' ≠ l →
    LaneWrite l k addr value → late (h.store addr value s).2 l' → late s l'

namespace LanePhy
variable {h : Host σ} (phy : LanePhy h)

def logged : LanePhy h.logged where
  toMemoryPhy := phy.toMemoryPhy.logged
  late r := phy.late r.world
  reportLate n hs := phy.reportLate n hs
  loadLate addr hs := phy.loadLate addr hs
  loadReady hs hl := phy.loadReady hs hl
  loadOnTime hs hl := phy.loadOnTime hs hl
  resetLate hs hl := phy.resetLate hs hl
  statusLate w hs hl := phy.statusLate w hs hl
  requestLate c addr value hs hl := phy.requestLate c addr value hs hl
  othersLate hs hl hl' hne hw := phy.othersLate hs hl hl' hne hw

theorem others_of_steps {l l' : BusLane} {k : BusCommand} (hl : phy.isLane l) (hl' : phy.isLane l')
    (hne : l' ≠ l) {s s' : σ} (hs : phy.sound s)
    (hsteps : ReflTransGen (LaneStep h l k) s s') :
    phy.sound s' ∧ (phy.late s' l' → phy.late s l') := by
  induction hsteps with
  | refl => exact ⟨hs, id⟩
  | tail _ hstep ih =>
    obtain ⟨hs₁, hlate₁⟩ := ih
    cases hstep with
    | report n => exact ⟨(phy.report n hs₁).sound, fun hlate => hlate₁ (phy.reportLate n hs₁ hlate)⟩
    | load haddr => exact ⟨(phy.load _ hs₁).sound, fun hlate => hlate₁ (phy.loadLate _ hs₁ hlate)⟩
    | store hw =>
      refine ⟨?_, fun hlate => hlate₁ (phy.othersLate hs₁ hl hl' hne hw hlate)⟩
      cases hw with
      | reset => exact (phy.storeReset hs₁ hl).1.sound
      | clear => exact (phy.storeStatus _ hs₁ hl).1.sound
      | request addr value => exact (phy.storeRequest k addr value hs₁ hl).1.sound

end LanePhy

/-! ## Simulated hardware -/

theorem Hardware.others_late {ports : Nat} {l l' : BusLane} {k : BusCommand} {hw : Hardware}
    (hports : ports ≤ 256) (hl : HasLane ports l) (hl' : HasLane ports l') (hne : l' ≠ l)
    (hs : hw.Settles ports) {addr value : UInt32} (hw' : LaneWrite l k addr value)
    (hlate : (hw.write addr value).2.IsLate l') : hw.IsLate l' := by
  have hsame (lags : Store UInt32 Lag) (hlags : ∀ lag, lags.get? l'.status = some lag →
      hw.lags.get? l'.status = some lag) (hfinal : (hw.write addr value).2.lags = lags) :
      hw.IsLate l' := by
    obtain ⟨left, value, hlag⟩ := hlate
    rw [hfinal] at hlag
    exact ⟨left, value, hlags _ hlag⟩
  cases hw' with
  | reset =>
    refine hsame ((hw.lags.erase l.control).erase l.status) (fun lag hlag => ?_) ?_
    · rw [Store.get?_erase, if_neg (status_ne_status hports hl hl' hne), Store.get?_erase,
        if_neg (control_ne_status hports hl hl')] at hlag
      exact hlag
    · rw [write_reset_done hports hl hs]
      rfl
  | clear w =>
    refine hsame hw.lags (fun _ => id) ?_
    rw [write_status hports hl hs.toSound]
    rfl
  | request a v =>
    let word := BusWord.request k a v
    let hw₁ : Hardware := { hw with faults := hw.faults.tail }
    have hfinish (swap : Bool) := (finish_rest hw₁ l k
      ⟨l.port, l.lane, (BusWord.address.get word).toUInt16⟩ (BusWord.byte word) swap
      (word &&& ~~~BusWord.pending)).2.2.1
    have hwritten := congrArg Prod.snd (write_request hports hl hs.toSound k a v)
    cases hfault : hw.faults.headD .ok <;> rw [hfault] at hwritten
    case ok => exact hsame _ (fun _ => id) ((congrArg lags hwritten).trans (hfinish false))
    case swap => exact hsame _ (fun _ => id) ((congrArg lags hwritten).trans (hfinish true))
    case hang | refuse =>
      refine hsame hw.lags (fun _ => id) ?_
      rw [hwritten]
      rfl
    case delay n =>
      refine hsame (((hw₁.finish l k ⟨l.port, l.lane, (BusWord.address.get word).toUInt16⟩
        (BusWord.byte word) false (word &&& ~~~BusWord.pending)).lags.set l.control
          ⟨n, word⟩).set l.status ⟨n, 0⟩) (fun lag hlag => ?_) (congrArg lags hwritten)
      rw [Store.get?_set, if_neg (status_ne_status hports hl hl' hne), Store.get?_set,
        if_neg (control_ne_status hports hl hl'), hfinish false] at hlag
      exact hlag

def Played.lanePhy (ports : Nat) (hports : ports ≤ 256) : LanePhy host where
  toLatePhy := latePhy ports hports
  othersLate hs hl hl' hne hw hlate := Hardware.others_late hports hl hl' hne hs hw hlate

end Retune
