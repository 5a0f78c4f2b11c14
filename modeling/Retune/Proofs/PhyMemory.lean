import Mathlib.Logic.Function.Basic
import Retune.Bench.Hardware
import Retune.Proofs.BusPhy

/-!
# PHYs with memory

What a PHY keeps behind its lanes, and what its transactions do to it: one that is
left pending or refused changes nothing, one that is executed reads or stores its
byte, whatever is answered. Resets complete.
-/

namespace Retune

/-! ## Words and their bytes -/

namespace MessageBus

theorem ofBytes_toNat (high low : UInt8) :
    (ofBytes high low).toNat = 0x100 * high.toNat + low.toNat := by
  have hhigh := high.toNat_lt
  have hlow := low.toNat_lt
  have hshift : (high.toUInt16 <<< 8).toNat = high.toNat <<< 8 := by
    rw [UInt16.toNat_shiftLeft, UInt8.toNat_toUInt16, Nat.shiftLeft_eq]
    simp only [UInt16.reduceToNat, Nat.reduceMod, Nat.reducePow]
    omega
  unfold ofBytes
  rw [UInt16.toNat_or, hshift, UInt8.toNat_toUInt16, ← Nat.shiftLeft_add_eq_or_of_lt hlow,
    Nat.shiftLeft_eq]
  omega

theorem highByte_toNat (w : UInt16) : (highByte w).toNat = w.toNat / 0x100 := by
  have hw := w.toNat_lt
  unfold highByte
  rw [UInt16.toNat_toUInt8, UInt16.toNat_shiftRight, Nat.shiftRight_eq_div_pow]
  simp only [UInt16.reduceToNat, Nat.reduceMod, Nat.reducePow]
  omega

theorem lowByte_toNat (w : UInt16) : (lowByte w).toNat = w.toNat % 0x100 := UInt16.toNat_toUInt8 w

variable (high low : UInt8) (w : UInt16)

@[simp] theorem highByte_ofBytes : highByte (ofBytes high low) = high := by
  have hlow := low.toNat_lt
  apply UInt8.toNat_inj.mp
  rw [highByte_toNat, ofBytes_toNat]
  omega

@[simp] theorem lowByte_ofBytes : lowByte (ofBytes high low) = low := by
  have hlow := low.toNat_lt
  apply UInt8.toNat_inj.mp
  rw [lowByte_toNat, ofBytes_toNat]
  omega

@[simp] theorem ofBytes_bytes : ofBytes (highByte w) (lowByte w) = w := by
  apply UInt16.toNat_inj.mp
  rw [ofBytes_toNat, highByte_toNat, lowByte_toNat]
  omega

end MessageBus

/-! ## Memory -/

/-- The bytes of the PHYs, and for each port the words of its SRAM and the indirect
registers that lead there. -/
structure PhyMemory where
  byte : PhyByte → UInt8
  word : SramWord → UInt16
  window : UInt32 → SramWindow

namespace PhyMemory

def answer (m : PhyMemory) (b : PhyByte) : UInt8 :=
  if b.addr = SramPort.readDataHigh then
    MessageBus.highByte (m.word ⟨b.port, (m.window b.port).readAddr⟩)
  else if b.addr = SramPort.readDataLow then
    MessageBus.lowByte (m.word ⟨b.port, (m.window b.port).readAddr⟩)
  else m.byte b

def store (m : PhyMemory) (b : PhyByte) (value : UInt8) : PhyMemory where
  byte := Function.update m.byte b value
  word :=
    if b.addr = SramPort.writeDataLow then
      Function.update m.word ⟨b.port, (m.window b.port).writeAddr⟩
        (MessageBus.ofBytes (m.window b.port).writeHigh value)
    else m.word
  window := Function.update m.window b.port ((m.window b.port).write b.addr value)

def carry (m : PhyMemory) (c : BusCommand) (b : PhyByte) (value : UInt8) : PhyMemory :=
  match c with
  | .read => m
  | .writeCommitted | .writeUncommitted => m.store b value

variable (m : PhyMemory) (b : PhyByte) (value : UInt8)

theorem word_store (port : UInt32) (lane : UInt8) {addr : UInt16}
    (haddr : addr ≠ SramPort.writeDataLow) : (m.store ⟨port, lane, addr⟩ value).word = m.word :=
  if_neg haddr

theorem window_store (port : UInt32) (lane : UInt8) (addr : UInt16) :
    (m.store ⟨port, lane, addr⟩ value).window port = (m.window port).write addr value :=
  Function.update_self _ _ _

theorem write_write (s : SramWindow) (addr : UInt16) :
    (s.write addr value).write addr value = s.write addr value := by
  unfold SramWindow.write
  split_ifs <;> simp

theorem store_store : (m.store b value).store b value = m.store b value := by
  unfold store
  simp only [Function.update_self, write_write, Function.update_idem, mk.injEq, true_and, and_true]
  split
  · next haddr =>
    -- the low data byte moves nothing in the window
    have hfixed : (m.window b.port).write b.addr value = m.window b.port := by
      rw [haddr]
      rfl
    rw [hfixed, Function.update_idem]
  · rfl

end PhyMemory

/-! ## Lanes -/

structure LaneState where
  status : UInt32
  resetting : Bool
  waiting : Bool

def LaneState.IsClear (x : LaneState) : Prop := x.status &&& BusWord.responseReady = 0

/-- What a transaction makes of the status word, of the memory, and of whether it
waits. -/
inductive Handled (c : BusCommand) (b : PhyByte) (value : UInt8) (w : UInt32) (m : PhyMemory) :
    UInt32 → PhyMemory → Bool → Prop where
  | left : Handled c b value w m w m true
  | refused {w'} (herror : w' &&& BusWord.errorSet ≠ 0) : Handled c b value w m w' m false
  | executed (swap : Bool) :
      Handled c b value w m (c.reply swap (m.answer b)) (m.carry c b value) false

namespace Handled
variable {c : BusCommand} {b : PhyByte} {value : UInt8} {w w' : UInt32} {m m' : PhyMemory}
  {waiting : Bool}

theorem memory_or (h : Handled c b value w m w' m' waiting) : m' = m ∨ m' = m.carry c b value := by
  cases h with
  | left | refused => exact .inl rfl
  | executed => exact .inr rfl

theorem memory_of_done (h : Handled c b value w m w' m' false)
    (hnone : w' &&& BusWord.errorSet = 0) : m' = m.carry c b value := by
  cases h with
  | refused herror => exact absurd hnone herror
  | executed => rfl

theorem byte_of_ready (h : Handled .read b value w m w' m' waiting)
    (hclear : w &&& BusWord.responseReady = 0) (hready : w' &&& BusWord.responseReady ≠ 0)
    (hnone : w' &&& BusWord.errorSet = 0)
    (hcode : BusResponse.ofCode? (BusWord.command.get w') = some .readAck) :
    BusWord.byte w' = m.answer b := by
  cases h with
  | left => exact absurd hclear hready
  | refused herror => exact absurd hnone herror
  | executed swap =>
    cases swap with
    | true =>
      have hmistyped : BusResponse.ofCode? (BusWord.command.get
        (BusWord.response .writeAck 0)) = some .readAck := hcode
      rw [BusWord.response_of] at hmistyped
      cases hmistyped
    | false => exact BusWord.byte_response _ .readAck

end Handled

/-- What there is to know of a PHY with memory in the states that are `sound`. In
those that are `prompt` an error shows as soon as it is there. -/
structure MemoryView (σ : Type) where
  isLane : BusLane → Prop
  sound : σ → Prop
  prompt : σ → Prop
  lane : σ → BusLane → LaneState
  memory : σ → PhyMemory

namespace MemoryView
variable {σ : Type} (v : MemoryView σ)

structure Same (s s' : σ) : Prop where
  sound : v.sound s'
  prompt : v.prompt s → v.prompt s'
  lane : v.lane s' = v.lane s
  memory : v.memory s' = v.memory s

structure SameBut (l : BusLane) (s s' : σ) : Prop where
  sound : v.sound s'
  prompt : v.prompt s → v.prompt s'
  lane : ∀ l', v.isLane l' → l' ≠ l → v.lane s' l' = v.lane s l'

variable {v}

theorem Same.trans {s s' s'' : σ} (h₁ : v.Same s s') (h₂ : v.Same s' s'') : v.Same s s'' :=
  ⟨h₂.sound, fun h => h₂.prompt (h₁.prompt h), h₂.lane.trans h₁.lane, h₂.memory.trans h₁.memory⟩

theorem Same.sameBut {s s' : σ} (h : v.Same s s') (l : BusLane) : v.SameBut l s s' :=
  ⟨h.sound, h.prompt, fun l' _ _ => congrFun h.lane l'⟩

theorem SameBut.trans {l : BusLane} {s s' s'' : σ} (h₁ : v.SameBut l s s')
    (h₂ : v.SameBut l s' s'') : v.SameBut l s s'' where
  sound := h₂.sound
  prompt h := h₂.prompt (h₁.prompt h)
  lane l' hl' hne := (h₂.lane l' hl' hne).trans (h₁.lane l' hl' hne)

end MemoryView

/-- A host whose lanes lead to a PHY with memory. What it does may show late, but a
transaction that waits can be seen to until a reset, and resets complete. -/
structure MemoryPhy {σ : Type} (h : Host σ) extends MemoryView σ where
  report : ∀ {s} n, sound s → toMemoryView.Same s (h.report n s).2
  load : ∀ {s} addr, sound s → toMemoryView.Same s (h.load addr s).2
  loadStatus : ∀ {s l}, sound s → isLane l →
    (h.load l.status s).1 &&& BusWord.responseReady ≠ 0 →
      (h.load l.status s).1 = (lane s l).status
  loadError : ∀ {s l}, sound s → isLane l → prompt s →
    (lane s l).status &&& BusWord.errorSet ≠ 0 →
      (h.load l.status s).1 &&& BusWord.errorSet ≠ 0
  loadReset : ∀ {s l}, sound s → isLane l →
    (h.load l.control s).1 &&& BusWord.reset ≠ 0 → (lane s l).resetting = true
  loadPending : ∀ {s l}, sound s → isLane l → (lane s l).waiting = true →
    (h.load l.control s).1 &&& BusWord.pending ≠ 0
  storeReset : ∀ {s l}, sound s → isLane l →
    let s' := (h.store l.control BusWord.reset s).2
    toMemoryView.SameBut l s s' ∧ lane s' l = ⟨(lane s l).status, false, false⟩ ∧
      memory s' = memory s
  storeStatus : ∀ {s l} w, sound s → isLane l →
    let s' := (h.store l.status w s).2
    toMemoryView.SameBut l s s' ∧ (lane s' l).status = (lane s l).status &&& ~~~w ∧
      memory s' = memory s
  storeRequest : ∀ {s l} c addr value, sound s → isLane l →
    let s' := (h.store l.control (BusWord.request c addr value) s).2
    toMemoryView.SameBut l s s' ∧
      Handled c ⟨l.port, l.lane, addr &&& 0xFFF⟩ value (lane s l).status (memory s)
        (lane s' l).status (memory s') (lane s' l).waiting

end Retune
