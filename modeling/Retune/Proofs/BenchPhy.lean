import Retune.Bench.Hardware
import Retune.Proofs.Addresses
import Retune.Proofs.BusPhy

/-!
# Simulated hardware as a PHY

The lanes of the simulated hardware have registers of their own, and whatever
becomes of its transactions and resets is what a PHY may do. What it executes is
written down.
-/

namespace Retune

/-! ## The lanes of simulated hardware -/

namespace Hardware

def HasLane (ports : Nat) (l : BusLane) : Prop := l.port.toNat < ports ∧ (l.lane = 0 ∨ l.lane = 1)

variable {ports : Nat} {l l' : BusLane}

theorem busStart_lt (hports : ports ≤ 256) (hl : HasLane ports l) :
    busStart l.port.toNat + 12 < 2 ^ 32 := by
  have hport : l.port.toNat < 256 := Nat.lt_of_lt_of_le hl.1 hports
  have hstart := busStart_cases l.port.toNat
  omega

theorem HasLane.lane_le (hl : HasLane ports l) : l.lane.toNat ≤ 1 := by
  rcases hl.2 with h | h <;> rw [h] <;> decide

theorem control_toNat (hports : ports ≤ 256) (hl : HasLane ports l) :
    l.control.toNat =
      (if l.port.toNat < 3 then 0x64040 + l.port.toNat * 0x100
        else 0x16F240 + (l.port.toNat - 3) * 0x200) + l.lane.toNat * 4 :=
  controlRegister_toNat hl.lane_le (busStart_lt hports hl)

theorem status_toNat (hports : ports ≤ 256) (hl : HasLane ports l) :
    l.status.toNat = l.control.toNat + 8 := by
  have hstatus := statusRegister_toNat hl.lane_le (busStart_lt hports hl)
  rw [← controlRegister_toNat hl.lane_le (busStart_lt hports hl)] at hstatus
  exact hstatus

theorem ofAddr?_offset {port offset : Nat} {addr : UInt32} (hport : port < ports)
    (hoffset : offset < 16)
    (haddr : addr.toNat =
      (if port < 3 then 0x64040 + port * 0x100 else 0x16F240 + (port - 3) * 0x200) + offset) :
    BusRegister.ofAddr? ports addr = BusRegister.ofOffset? port offset := by
  unfold BusRegister.ofAddr?
  by_cases hthree : port < 3
  · rw [if_pos hthree] at haddr
    have hlow : ¬ addr.toNat < 0x64040 := by omega
    have hhigh : addr.toNat < 0x64340 := by omega
    have hdiv : (addr.toNat - 0x64040) / 0x100 = port := by omega
    have hmod : (addr.toNat - 0x64040) % 0x100 = offset := by omega
    simp only [if_neg hlow, if_pos hhigh, hdiv, hmod, if_pos hport]
  · rw [if_neg hthree] at haddr
    have hlow : ¬ addr.toNat < 0x64040 := by omega
    have hhigh : ¬ addr.toNat < 0x64340 := by omega
    have htypeC : ¬ addr.toNat < 0x16F240 := by omega
    have hdiv : 3 + (addr.toNat - 0x16F240) / 0x200 = port := by omega
    have hmod : (addr.toNat - 0x16F240) % 0x200 = offset := by omega
    simp only [if_neg hlow, if_neg hhigh, if_neg htypeC, hdiv, hmod, if_pos hport]

theorem ofAddr?_control (hports : ports ≤ 256) (hl : HasLane ports l) :
    BusRegister.ofAddr? ports l.control = some ⟨l.port, l.lane, false⟩ := by
  have hcontrol := control_toNat hports hl
  obtain ⟨hport, hlane⟩ := hl
  have hoffset : l.lane.toNat * 4 < 16 := by rcases hlane with h | h <;> rw [h] <;> decide
  rw [ofAddr?_offset hport hoffset hcontrol]
  rcases hlane with h | h <;> rw [h] <;> simp [BusRegister.ofOffset?]

theorem ofAddr?_status (hports : ports ≤ 256) (hl : HasLane ports l) :
    BusRegister.ofAddr? ports l.status = some ⟨l.port, l.lane, true⟩ := by
  have hstatus := status_toNat hports hl
  rw [control_toNat hports hl, Nat.add_assoc] at hstatus
  obtain ⟨hport, hlane⟩ := hl
  have hoffset : l.lane.toNat * 4 + 8 < 16 := by rcases hlane with h | h <;> rw [h] <;> decide
  rw [ofAddr?_offset hport hoffset hstatus]
  rcases hlane with h | h <;> rw [h] <;> simp [BusRegister.ofOffset?]

theorem lane_ext (hport : l.port = l'.port) (hlane : l.lane = l'.lane) : l = l' := by
  cases l; cases l'
  cases hport; cases hlane
  rfl

theorem control_ne_control (hports : ports ≤ 256) (hl : HasLane ports l) (hl' : HasLane ports l')
    (hne : l' ≠ l) : l.control ≠ l'.control := by
  intro heq
  have hdecoded := ofAddr?_control hports hl
  rw [heq, ofAddr?_control hports hl'] at hdecoded
  simp only [Option.some.injEq, BusRegister.mk.injEq] at hdecoded
  exact hne (lane_ext hdecoded.1 hdecoded.2.1)

theorem status_ne_status (hports : ports ≤ 256) (hl : HasLane ports l) (hl' : HasLane ports l')
    (hne : l' ≠ l) : l.status ≠ l'.status := by
  intro heq
  have hdecoded := ofAddr?_status hports hl
  rw [heq, ofAddr?_status hports hl'] at hdecoded
  simp only [Option.some.injEq, BusRegister.mk.injEq] at hdecoded
  exact hne (lane_ext hdecoded.1 hdecoded.2.1)

theorem control_ne_status (hports : ports ≤ 256) (hl : HasLane ports l) (hl' : HasLane ports l') :
    l.control ≠ l'.status := by
  intro heq
  have hdecoded := ofAddr?_control hports hl
  rw [heq, ofAddr?_status hports hl'] at hdecoded
  simp only [Option.some.injEq, BusRegister.mk.injEq] at hdecoded
  exact absurd hdecoded.2.2 (by decide)

/-! ## Registers of simulated hardware -/

theorem register_set (hw : Hardware) (addr value a : UInt32) :
    (hw.setRegister addr value).register a = if addr = a then value else hw.register a := by
  unfold Hardware.register Hardware.setRegister
  rw [Store.get_set]

/-- Nothing is queued, what still shows after a transaction is neither a reset
nor a response, and a refusal comes with the error bit. -/
structure Sound (ports : Nat) (hw : Hardware) : Prop where
  size : hw.ports = ports
  queued : ∀ addr, hw.queued.get addr [] = []
  faults : ∀ w, .refuse w ∈ hw.faults → w &&& BusWord.errorSet ≠ 0
  controlLags : ∀ l, HasLane ports l → ∀ lag, hw.lags.get? l.control = some lag →
    lag.value &&& BusWord.reset = 0
  statusLags : ∀ l, HasLane ports l → ∀ lag, hw.lags.get? l.status = some lag →
    lag.value &&& BusWord.responseReady = 0

variable {hw hw' : Hardware}

theorem Sound.of_eq (hs : Sound ports hw) (hports : hw'.ports = hw.ports)
    (hqueued : hw'.queued = hw.queued) (hfaults : ∀ f ∈ hw'.faults, f ∈ hw.faults)
    (hlags : ∀ a lag, hw'.lags.get? a = some lag → ∃ lag', hw.lags.get? a = some lag' ∧
      lag'.value = lag.value) : Sound ports hw' where
  size := hports.trans hs.size
  queued addr := by
    rw [hqueued]
    exact hs.queued addr
  faults w hw := hs.faults w (hfaults _ hw)
  controlLags l hl lag hlag := by
    obtain ⟨lag', hlag', hvalue⟩ := hlags _ _ hlag
    rw [← hvalue]
    exact hs.controlLags l hl lag' hlag'
  statusLags l hl lag hlag := by
    obtain ⟨lag', hlag', hvalue⟩ := hlags _ _ hlag
    rw [← hvalue]
    exact hs.statusLags l hl lag' hlag'

theorem Sound.setRegister (hs : Sound ports hw) (addr value : UInt32) :
    Sound ports (hw.setRegister addr value) :=
  ⟨hs.size, hs.queued, hs.faults, hs.controlLags, hs.statusLags⟩

theorem Sound.read (hs : Sound ports hw) (addr : UInt32) :
    Sound ports (hw.read addr).2 ∧ (hw.read addr).2.registers = hw.registers ∧
      ((hw.read addr).1 = hw.register addr ∨
        ∃ lag, hw.lags.get? addr = some lag ∧ (hw.read addr).1 = lag.value) := by
  unfold Hardware.read
  rw [hs.queued addr]
  dsimp only
  rcases hlag : hw.lags.get? addr with _ | ⟨_ | left, value⟩
  · exact ⟨hs, rfl, .inl rfl⟩
  · exact ⟨hs, rfl, .inl rfl⟩
  · refine ⟨hs.of_eq rfl rfl (fun _ => id) ?_, rfl, .inr ⟨⟨left + 1, value⟩, rfl, rfl⟩⟩
    intro a lag hget
    rw [Store.get?_set] at hget
    split at hget
    · next heq =>
      cases hget
      rw [← heq]
      exact ⟨_, hlag, rfl⟩
    · exact ⟨lag, hget, rfl⟩

/-! ## Writes to a lane -/

theorem write_reset (hports : ports ≤ 256) (hl : HasLane ports l) (hs : Sound ports hw) :
    ∃ value, (hw.write l.control BusWord.reset).1 = some (.reset l.port l.lane) ∧
      Sound ports (hw.write l.control BusWord.reset).2 ∧
        ∀ a, (hw.write l.control BusWord.reset).2.register a =
          if l.control = a then value else hw.register a := by
  have hbit : (BusWord.reset &&& BusWord.reset != 0) = true := by decide
  have hlags (a : UInt32) (lag : Lag)
      (hlag : ((hw.lags.erase l.control).erase l.status).get? a = some lag) :
      ∃ lag', hw.lags.get? a = some lag' ∧ lag'.value = lag.value := by
    rw [Store.get?_erase, Store.get?_erase] at hlag
    split at hlag
    · cases hlag
    · split at hlag
      · cases hlag
      · exact ⟨lag, hlag, rfl⟩
  have hdecoded : BusRegister.ofAddr? hw.ports l.control = some ⟨l.port, l.lane, false⟩ := by
    rw [hs.size]
    exact ofAddr?_control hports hl
  unfold Hardware.write
  rw [hdecoded]
  simp only [Bool.false_eq_true, if_false, Hardware.writeControl, hbit, if_true]
  unfold Hardware.resetLane
  split
  · refine ⟨0, trivial, Sound.setRegister ?_ _ _, fun a => register_set _ _ _ a⟩
    exact hs.of_eq rfl rfl (fun _ => id) hlags
  · refine ⟨BusWord.reset, trivial, Sound.setRegister ?_ _ _, fun a => register_set _ _ _ a⟩
    exact hs.of_eq rfl rfl (fun _ => id) hlags

theorem write_status (hports : ports ≤ 256) (hl : HasLane ports l) (hs : Sound ports hw)
    (w : UInt32) :
    hw.write l.status w = (none, hw.setRegister l.status (hw.register l.status &&& ~~~w)) := by
  unfold Hardware.write
  rw [hs.size, ofAddr?_status hports hl]
  rfl

theorem write_request (hports : ports ≤ 256) (hl : HasLane ports l) (hs : Sound ports hw)
    (c : BusCommand) (addr : UInt16) (value : UInt8) :
    hw.write l.control (BusWord.request c addr value) =
      (some (.transaction l.port l.lane c (addr &&& 0xFFF)
          (BusWord.byte (BusWord.request c addr value)) (hw.faults.headD .ok)),
        { hw with faults := hw.faults.tail }.transact ⟨l.port, l.lane, false⟩
          (BusWord.request c addr value) c (hw.faults.headD .ok)) := by
  have hreset : (BusWord.request c addr value &&& BusWord.reset != 0) = false := by
    rw [BusWord.request_reset]
    rfl
  have hpending : (BusWord.request c addr value &&& BusWord.pending != 0) = true :=
    bne_iff_ne.mpr (BusWord.request_pending c addr value)
  have hdecoded : BusRegister.ofAddr? hw.ports l.control = some ⟨l.port, l.lane, false⟩ := by
    rw [hs.size]
    exact ofAddr?_control hports hl
  unfold Hardware.write
  rw [hdecoded]
  simp only [Bool.false_eq_true, if_false, Hardware.writeControl, hreset, hpending, if_true,
    BusWord.command_request, BusWord.ofCode?_code, BusWord.address_request]

def exchanged (hw : Hardware) (c : BusCommand) (b : PhyByte) (data : UInt8) : UInt8 :=
  match c with
  | .read => hw.answerByte b
  | .writeCommitted | .writeUncommitted => data

theorem execute_status (hw : Hardware) (c : BusCommand) (b : PhyByte) (data : UInt8) (swap : Bool) :
    (hw.execute c b data swap).1 = c.reply swap (hw.exchanged c b data) := by
  cases c <;> rfl

theorem execute_rest (hw : Hardware) (c : BusCommand) (b : PhyByte) (data : UInt8) (swap : Bool) :
    let hw' := (hw.execute c b data swap).2
    hw'.ports = hw.ports ∧ hw'.registers = hw.registers ∧ hw'.queued = hw.queued ∧
      hw'.lags = hw.lags ∧ hw'.faults = hw.faults := by
  cases c <;> exact ⟨rfl, rfl, rfl, rfl, rfl⟩

end Hardware

/-! ## What is executed -/

def BusFault.executes : BusFault → Bool
  | .ok | .swap | .delay _ => true
  | .hang | .refuse _ => false

def BusEvent.execution? (hw : Hardware) : BusEvent → Option Execution
  | .reset .. => none
  | .transaction port lane c addr data fault =>
    if fault.executes then some ⟨⟨port, lane⟩, c, addr, hw.exchanged c ⟨port, lane, addr⟩ data⟩
    else none

namespace Hardware
variable {ports : Nat} {l : BusLane} {hw : Hardware}

def finish (hw : Hardware) (l : BusLane) (c : BusCommand) (b : PhyByte) (data : UInt8) (swap : Bool)
    (taken : UInt32) : Hardware :=
  ((hw.execute c b data swap).2.setRegister l.status (hw.execute c b data swap).1).setRegister
    l.control taken

theorem Sound.finish (hs : Sound ports hw) (c : BusCommand) (b : PhyByte) (data : UInt8)
    (swap : Bool) (taken : UInt32) : Sound ports (hw.finish l c b data swap taken) := by
  obtain ⟨hsize, -, hqueued, hlags, hfaults⟩ := hw.execute_rest c b data swap
  have hexecuted : Sound ports (hw.execute c b data swap).2 := by
    refine hs.of_eq hsize hqueued (fun f hf => hfaults ▸ hf) ?_
    intro a lag hlag
    rw [hlags] at hlag
    exact ⟨lag, hlag, rfl⟩
  exact (hexecuted.setRegister _ _).setRegister _ _

theorem register_finish (hw : Hardware) (l : BusLane) (c : BusCommand) (b : PhyByte) (data : UInt8)
    (swap : Bool) (taken a : UInt32) :
    (hw.finish l c b data swap taken).register a =
      if l.control = a then taken
      else if l.status = a then c.reply swap (hw.exchanged c b data)
      else hw.register a := by
  obtain ⟨-, hregisters, -⟩ := hw.execute_rest c b data swap
  have hexecuted : (hw.execute c b data swap).2.register a = hw.register a := by
    unfold Hardware.register
    rw [hregisters]
  unfold finish
  rw [register_set, register_set, execute_status, hexecuted]

theorem Sound.delay (hports : ports ≤ 256) (hl : HasLane ports l) (hs : Sound ports hw) (n : Nat)
    (c : BusCommand) (addr : UInt16) (value : UInt8) :
    Sound ports { hw with
      lags := (hw.lags.set l.control ⟨n, BusWord.request c addr value⟩).set l.status ⟨n, 0⟩ } where
  size := hs.size
  queued := hs.queued
  faults := hs.faults
  controlLags l' hl' lag hlag := by
    rw [Store.get?_set, if_neg (control_ne_status hports hl' hl).symm, Store.get?_set] at hlag
    split at hlag
    · cases hlag
      exact BusWord.request_reset c addr value
    · exact hs.controlLags l' hl' lag hlag
  statusLags l' hl' lag hlag := by
    rw [Store.get?_set] at hlag
    split at hlag
    · cases hlag
      exact UInt32.zero_and
    · rw [Store.get?_set, if_neg (control_ne_status hports hl hl')] at hlag
      exact hs.statusLags l' hl' lag hlag

/-- What a transaction leaves, from the word of its lane and what is executed of
it. -/
structure Concluded (ports : Nat) (l : BusLane) (c : BusCommand) (addr : UInt16)
    (done : List Execution) (hw hw' : Hardware) (done' : List Execution) : Prop where
  sound : Sound ports hw'
  others : ∀ a, l.control ≠ a → l.status ≠ a → hw'.register a = hw.register a
  transacted : Transacted l c addr (hw.register l.status) done (hw'.register l.status) done'

theorem concluded_finish (hports : ports ≤ 256) (hl : HasLane ports l) (hs : Sound ports hw)
    (c : BusCommand) (b : PhyByte) (data : UInt8) (swap : Bool) (taken : UInt32)
    (addr : UInt16) (done : List Execution) :
    Concluded ports l c addr done hw (hw.finish l c b data swap taken)
      (⟨l, c, addr, hw.exchanged c b data⟩ :: done) where
  sound := hs.finish c b data swap taken
  others a hcontrol hstatus := by
    rw [register_finish, if_neg hcontrol, if_neg hstatus]
  transacted := by
    rw [register_finish, if_neg (control_ne_status hports hl hl), if_pos rfl]
    exact .executed swap _

theorem concluded_request (hports : ports ≤ 256) (hl : HasLane ports l) (hs : Sound ports hw)
    (c : BusCommand) (addr : UInt16) (value : UInt8) (done : List Execution) :
    let (event?, hw') := hw.write l.control (BusWord.request c addr value)
    Concluded ports l c (addr &&& 0xFFF) done hw hw'
      ((event?.bind (·.execution? hw)).toList ++ done) := by
  have hne : l.control ≠ l.status := control_ne_status hports hl hl
  let hw₁ : Hardware := { hw with faults := hw.faults.tail }
  have hs₁ : Sound ports hw₁ := by
    refine hs.of_eq rfl rfl (fun f hf => List.mem_of_mem_tail hf) ?_
    exact fun a lag hlag => ⟨lag, hlag, rfl⟩
  have hrefused : ∀ w, hw.faults.headD .ok = .refuse w → w &&& BusWord.errorSet ≠ 0 := by
    intro w hhead
    refine hs.faults w ?_
    rcases hfaults : hw.faults with _ | ⟨f, fs⟩ <;> rw [hfaults] at hhead
    · cases hhead
    · exact List.mem_cons.mpr (.inl hhead.symm)
  have hfinish (swap : Bool) := concluded_finish hports hl hs₁ c
    ⟨l.port, l.lane, (BusWord.address.get (BusWord.request c addr value)).toUInt16⟩
    (BusWord.byte (BusWord.request c addr value)) swap
    (BusWord.request c addr value &&& ~~~BusWord.pending)
    (BusWord.address.get (BusWord.request c addr value)).toUInt16 done
  rw [write_request hports hl hs, ← BusWord.address_request c addr value]
  generalize hw.faults.headD .ok = fault at hrefused ⊢
  dsimp only
  -- the fault that is next decides what becomes of the transaction
  cases fault with
  | hang =>
    have hregister (a : UInt32) := register_set hw₁ l.control (BusWord.request c addr value) a
    refine ⟨hs₁.setRegister _ _, fun a hcontrol _ => (hregister a).trans (if_neg hcontrol), ?_⟩
    show Transacted l c _ _ done ((hw₁.setRegister l.control _).register l.status) done
    rw [hregister, if_neg hne]
    exact .left
  | refuse w =>
    have hregister (a : UInt32) : ((hw₁.setRegister l.status w).setRegister l.control
        (BusWord.request c addr value &&& ~~~BusWord.pending)).register a =
          if l.control = a then BusWord.request c addr value &&& ~~~BusWord.pending
          else if l.status = a then w else hw.register a := by
      rw [register_set, register_set]
      rfl
    refine ⟨(hs₁.setRegister _ _).setRegister _ _, ?_, ?_⟩
    · intro a hcontrol hstatus
      refine (hregister a).trans ?_
      rw [if_neg hcontrol, if_neg hstatus]
    · show Transacted l c _ _ done
        (((hw₁.setRegister l.status w).setRegister l.control _).register l.status) done
      rw [hregister, if_neg hne, if_pos rfl]
      exact .refused (hrefused w rfl)
  | ok => exact ⟨(hfinish false).sound, (hfinish false).others, (hfinish false).transacted⟩
  | swap => exact ⟨(hfinish true).sound, (hfinish true).others, (hfinish true).transacted⟩
  | delay n =>
    have hdelay := Sound.delay hports hl (hfinish false).sound n c addr value
    exact ⟨hdelay, (hfinish false).others, (hfinish false).transacted⟩

end Hardware

/-! ## Simulated hardware as a PHY -/

/-- Hardware with what it has executed so far, the latest first. -/
structure Played where
  hardware : Hardware
  executed : List Execution

namespace Played

def host : Host Played where
  stopRequested _ := return false
  report _ := return ()
  pause _ := return ()
  load addr p := ((p.hardware.read addr).1, { p with hardware := (p.hardware.read addr).2 })
  store addr value p :=
    let (event?, hardware) := p.hardware.write addr value
    ((), ⟨hardware, (event?.bind (·.execution? p.hardware)).toList ++ p.executed⟩)

def view (ports : Nat) : PhyView Played where
  isLane := Hardware.HasLane ports
  sound p := p.hardware.Sound ports
  status p l := p.hardware.register l.status
  resetting p l := p.hardware.register l.control &&& BusWord.reset != 0
  executed := executed

variable {ports : Nat} {l : BusLane} {p : Played}

theorem store_run (addr value : UInt32) (p : Played) :
    host.store addr value p = ((), ⟨(p.hardware.write addr value).2,
      ((p.hardware.write addr value).1.bind (·.execution? p.hardware)).toList ++ p.executed⟩) := rfl

theorem same_load (hs : p.hardware.Sound ports) (addr : UInt32) :
    (view ports).Same p (host.load addr p).2 := by
  obtain ⟨hsound, hregisters, -⟩ := hs.read addr
  have hregister : (p.hardware.read addr).2.register = p.hardware.register := by
    funext a
    unfold Hardware.register
    rw [hregisters]
  refine ⟨hsound, ?_, ?_, rfl⟩
  · funext l
    exact congrFun hregister l.status
  · funext l
    exact congrArg (fun w => w &&& BusWord.reset != 0) (congrFun hregister l.control)

theorem sameBut_of_register (hports : ports ≤ 256) (hl : Hardware.HasLane ports l) {p' : Played}
    (hsound : p'.hardware.Sound ports) (hregister : ∀ a, l.control ≠ a → l.status ≠ a →
      p'.hardware.register a = p.hardware.register a) :
    (view ports).SameBut l p p' := by
  refine ⟨hsound, fun l' hl' hne => ?_, fun l' hl' hne => ?_⟩
  · exact hregister _ (Hardware.control_ne_status hports hl hl')
      (Hardware.status_ne_status hports hl hl' hne)
  · have hcontrol := hregister _ (Hardware.control_ne_control hports hl hl' hne)
      (Hardware.control_ne_status hports hl' hl).symm
    show (p'.hardware.register l'.control &&& BusWord.reset != 0) = _
    rw [hcontrol]
    rfl

theorem store_reset (hports : ports ≤ 256) (hl : Hardware.HasLane ports l)
    (hs : p.hardware.Sound ports) :
    let p' := (host.store l.control BusWord.reset p).2
    (view ports).SameBut l p p' ∧ (view ports).status p' l = (view ports).status p l ∧
      p'.executed = p.executed := by
  obtain ⟨value, hevent, hsound, hregister⟩ := Hardware.write_reset hports hl hs
  have hne := Hardware.control_ne_status hports hl hl
  refine ⟨sameBut_of_register hports hl hsound ?_, ?_, ?_⟩
  · intro a hcontrol _
    exact (hregister a).trans (if_neg hcontrol)
  · exact (hregister l.status).trans (if_neg hne)
  · rw [store_run, hevent]
    rfl

theorem store_status (hports : ports ≤ 256) (hl : Hardware.HasLane ports l)
    (hs : p.hardware.Sound ports) (w : UInt32) :
    let p' := (host.store l.status w p).2
    (view ports).SameBut l p p' ∧
      (view ports).status p' l = (view ports).status p l &&& ~~~w ∧
        (view ports).resetting p' l = (view ports).resetting p l ∧ p'.executed = p.executed := by
  intro p'
  have hne := Hardware.control_ne_status hports hl hl
  have hwrite := Hardware.write_status hports hl hs w
  have hp' : p' = ⟨p.hardware.setRegister l.status (p.hardware.register l.status &&& ~~~w),
      p.executed⟩ := by
    show (host.store l.status w p).2 = _
    rw [store_run, hwrite]
    rfl
  rw [hp']
  refine ⟨sameBut_of_register hports hl (hs.setRegister _ _) ?_, ?_, ?_, rfl⟩
  · intro a _ hstatus
    exact (Hardware.register_set _ _ _ a).trans (if_neg hstatus)
  · exact (Hardware.register_set _ _ _ _).trans (if_pos rfl)
  · show (Hardware.register _ l.control &&& BusWord.reset != 0) = _
    rw [Hardware.register_set, if_neg hne.symm]
    rfl

def phy (ports : Nat) (hports : ports ≤ 256) : BusPhy host where
  toPhyView := view ports
  report _ hs := ⟨hs, rfl, rfl, rfl⟩
  load addr hs := same_load hs addr
  loadStatus {p l} hs hl hready := by
    rcases (Hardware.Sound.read hs l.status).2.2 with hstored | ⟨lag, hlag, hvalue⟩
    · exact hstored
    · have hclear := hs.statusLags l hl lag hlag
      rw [← hvalue] at hclear
      exact absurd hclear hready
  loadControl {p l} hs hl hreset := by
    rcases (Hardware.Sound.read hs l.control).2.2 with hstored | ⟨lag, hlag, hvalue⟩
    · have hshown : p.hardware.register l.control &&& BusWord.reset ≠ 0 := hstored ▸ hreset
      exact bne_iff_ne.mpr hshown
    · have hclear := hs.controlLags l hl lag hlag
      rw [← hvalue] at hclear
      exact absurd hclear hreset
  storeReset hs hl := store_reset hports hl hs
  storeStatus w hs hl := store_status hports hl hs w
  storeRequest {p l} c addr value hs hl := by
    have hconcluded := Hardware.concluded_request hports hl hs c addr value p.executed
    exact ⟨sameBut_of_register hports hl hconcluded.sound hconcluded.others,
      hconcluded.transacted⟩

def untouched (ports : Nat) (bytes : Store PhyByte UInt8) (stuckResets : Nat)
    (faults : List BusFault) : Played :=
  ⟨{ Hardware.blank ports with bytes, stuckResets, faults }, []⟩

theorem sound_untouched (ports : Nat) (bytes : Store PhyByte UInt8) (stuckResets : Nat)
    {faults : List BusFault} (hfaults : ∀ w, .refuse w ∈ faults → w &&& BusWord.errorSet ≠ 0) :
    (untouched ports bytes stuckResets faults).hardware.Sound ports where
  size := rfl
  queued _ := rfl
  faults := hfaults
  controlLags _ _ _ hlag := nomatch hlag
  statusLags _ _ _ hlag := nomatch hlag

theorem clear_untouched (ports : Nat) (bytes : Store PhyByte UInt8) (stuckResets : Nat)
    (faults : List BusFault) (l : BusLane) :
    (view ports).status (untouched ports bytes stuckResets faults) l &&&
      BusWord.responseReady = 0 := UInt32.zero_and

end Played

end Retune
