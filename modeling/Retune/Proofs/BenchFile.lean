import Retune.Bench.Session
import Retune.Proofs.Registers

/-!
# The bench as a register file

Without message-bus PHYs, queued values and lags the registers of the bench are
a register file, whichever timers a controller on it uses.
-/

namespace Retune

/-! ## Hardware -/

/-- Nothing comes between a register and what is stored. -/
structure Hardware.Plain (hw : Hardware) : Prop where
  ports : hw.ports = 0
  queued : ∀ addr, hw.queued.get addr [] = []
  lags : ∀ addr, hw.lags.get? addr = none

namespace Hardware

theorem ofAddr?_zero (addr : UInt32) : BusRegister.ofAddr? 0 addr = none := by
  unfold BusRegister.ofAddr?
  exact if_neg (Nat.not_lt_zero _)

theorem Plain.read {hw : Hardware} (h : hw.Plain) (addr : UInt32) :
    hw.read addr = (hw.register addr, hw) := by
  unfold Hardware.read
  rw [h.queued addr, h.lags addr]

theorem Plain.write {hw : Hardware} (h : hw.Plain) (addr value : UInt32) :
    hw.write addr value = (none, hw.setRegister addr value) := by
  unfold Hardware.write
  rw [h.ports, ofAddr?_zero]

theorem Plain.setRegister {hw : Hardware} (h : hw.Plain) (addr value : UInt32) :
    (hw.setRegister addr value).Plain := ⟨h.ports, h.queued, h.lags⟩

theorem register_setRegister (hw : Hardware) (addr value : UInt32) :
    (hw.setRegister addr value).register = Function.update hw.register addr value := by
  funext a
  unfold Hardware.register Hardware.setRegister
  rw [Store.get_set, Function.update_apply]
  by_cases h : addr = a
  · rw [if_pos h, if_pos h.symm]
  · rw [if_neg h, if_neg (Ne.symm h)]

end Hardware

/-! ## The bench -/

namespace Bench

theorem hardware_hear (b : Bench) (n : Notice) : (b.hear n).hardware = b.hardware := by
  unfold hear
  cases b.listening? with
  | none => rfl
  | some level =>
    dsimp only
    split <;> rfl

theorem hardware_noteAccess (b : Bench) (a : Access) : (b.noteAccess a).hardware = b.hardware := by
  unfold noteAccess
  split <;> rfl

theorem hardware_noteWrite (b : Bench) (addr value : UInt32) (event? : Option BusEvent) :
    (b.noteWrite addr value event?).hardware = b.hardware := by
  unfold noteWrite
  cases event? with
  | some e => rfl
  | none =>
    dsimp only
    split <;> rfl

theorem hardware_runHook (b : Bench) (addr value : UInt32) :
    (b.runHook addr value).hardware = b.hardware := by
  unfold runHook
  cases b.hook? with
  | none => rfl
  | some k =>
    dsimp only
    split <;> rfl

theorem hardware_load (b : Bench) (addr : UInt32) :
    (b.load addr).2.hardware = (b.hardware.read addr).2 := hardware_noteAccess _ _

theorem hardware_store (b : Bench) (addr value : UInt32) :
    (b.store addr value).hardware = (b.hardware.write addr value).2 := by
  unfold store
  dsimp only
  rw [hardware_runHook, hardware_noteWrite, hardware_noteAccess]

theorem hardware_elapse (session : Nat) (b : Bench) : (b.elapse session).2.hardware = b.hardware := by
  have hfired : ∀ (fired : List (FiredTimer Expiry)) (b : Bench),
      (fired.foldl (fun b t => b.hear (TimerNotice.fired t.timer.id)) b).hardware = b.hardware := by
    intro fired
    induction fired with
    | nil => intro b; rfl
    | cons t fired ih =>
      intro b
      rw [List.foldl_cons, ih, hardware_hear]
  exact hfired _ _

theorem hardware_cancelTimer (session id : Nat) (b : Bench) :
    ((workerStation session).cancelTimer id b).2.hardware = b.hardware := by
  show (if ((b.worker session).cancel id).1 = true then _ else _ : Bench).hardware = _
  split
  · exact hardware_hear _ _
  · rfl

def Plain (b : Bench) : Prop := b.hardware.Plain

theorem Plain.of_eq {b b' : Bench} (h : b.Plain) (hb : b'.hardware = b.hardware) :
    b'.Plain ∧ b'.hardware.register = b.hardware.register := by
  unfold Plain
  rw [hb]
  exact ⟨h, rfl⟩

theorem Plain.load {b : Bench} (h : b.Plain) (addr : UInt32) :
    (b.load addr).2.Plain ∧ (b.load addr).2.hardware.register = b.hardware.register :=
  h.of_eq (by rw [hardware_load, Hardware.Plain.read h])

theorem Plain.store {b : Bench} (h : b.Plain) (addr value : UInt32) :
    (b.store addr value).Plain ∧
      (b.store addr value).hardware.register =
        Function.update b.hardware.register addr value := by
  unfold Plain
  rw [hardware_store, Hardware.Plain.write h, Hardware.register_setRegister]
  exact ⟨Hardware.Plain.setRegister h addr value, rfl⟩

def file (session : Nat) : (timers : TimerKind) → RegisterFile host (Session.station session timers)
  | .byHand => {
      plain := Plain
      value := fun b => b.hardware.register
      loaded := fun addr h => congrArg Prod.fst (Hardware.Plain.read h addr)
      load := fun addr h => h.load addr
      store := fun addr v h => h.store addr v
      hostReport := fun n h => h.of_eq (hardware_hear _ n)
      report := fun n h => h.of_eq (hardware_hear _ n)
      stopRequested := fun _ h => h.of_eq rfl
      pause := fun _ h => h.of_eq rfl
      armTimer := fun _ _ h => h.of_eq rfl
      cancelTimer := fun _ h => h.of_eq rfl
      elapse := fun h => h.of_eq rfl }
  | .ownWorker => {
      plain := Plain
      value := fun b => b.hardware.register
      loaded := fun addr h => congrArg Prod.fst (Hardware.Plain.read h addr)
      load := fun addr h => h.load addr
      store := fun addr v h => h.store addr v
      hostReport := fun n h => h.of_eq (hardware_hear _ n)
      report := fun n h => h.of_eq (hardware_hear _ n)
      stopRequested := fun _ h => h.of_eq rfl
      pause := fun _ h => h.of_eq rfl
      armTimer := fun _ _ h => h.of_eq (hardware_hear _ _)
      cancelTimer := fun id h => h.of_eq (hardware_cancelTimer session id _)
      elapse := fun h => h.of_eq (hardware_elapse session _) }

def ofLink : Bench :=
  { blank 0 with
    hardware := ((Hardware.blank 0).setRegister 0x60040 100000).setRegister 0x60044 0x80000 }

theorem plain_ofLink : ofLink.Plain := ⟨rfl, fun _ => rfl, fun _ => rfl⟩

end Bench

/-- A millisecond to be made up for by half a percent, in one step. -/
def Adjustment.ofMillisecond : Adjustment := ⟨1.0, 0.5, 0.0, 1000, 0, true, true⟩

end Retune
