import Retune.Proofs.PhyMemory
import Retune.Proofs.Responses

/-!
# Bytes under faults

A committed write that succeeds has stored its byte, however many attempts it took; one
that fails has stored it or not. A read that succeeds answers with what the PHY holds,
unless a response was left on the lane before. Of an uncommitted write nothing is known
but that its byte is stored or not.
-/

namespace Retune.MemoryPhy

variable {σ α : Type} {h : Host σ}

/-! ## One lane during a call -/

section
variable (phy : MemoryPhy h) (l : BusLane) (M : PhyMemory → Prop) (s₀ : σ)

/-- The state `s` of a call on the lane that started in `s₀`, with a memory that `M`
allows. -/
structure Visit (s : σ) : Prop extends phy.SameBut l s₀ s where
  memory : M (phy.memory s)

/-- Between attempts nothing is left to be taken for a response. -/
structure Rested (s : σ) : Prop extends Visit phy l M s₀ s where
  clear : (phy.lane s l).IsClear

/-- Between attempts a lane that was clear is clear. With no attempts at all nothing is
cleared. -/
structure Attempted (s : σ) : Prop extends Visit phy l M s₀ s where
  onward : (phy.lane s₀ l).IsClear → (phy.lane s l).IsClear

structure Showed (addr : UInt32) (s : σ) (w : UInt32) : Prop where
  status : addr = l.status → w &&& BusWord.responseReady ≠ 0 → w = (phy.lane s l).status
  reset : addr = l.control → w &&& BusWord.reset ≠ 0 → (phy.lane s l).resetting = true
  pending : addr = l.control → (phy.lane s l).waiting = true → w &&& BusWord.pending ≠ 0

variable {phy l M s₀} {s s' : σ}

theorem Visit.step (hs : Visit phy l M s₀ s) (hbut : phy.SameBut l s s')
    (hmemory : M (phy.memory s')) : Visit phy l M s₀ s' :=
  ⟨hs.toSameBut.trans hbut, hmemory⟩

theorem Visit.same (hs : Visit phy l M s₀ s) (hsame : phy.Same s s') : Visit phy l M s₀ s' := by
  refine hs.step (hsame.sameBut l) ?_
  rw [hsame.memory]
  exact hs.memory

theorem Rested.same (hs : Rested phy l M s₀ s) (hsame : phy.Same s s') :
    Rested phy l M s₀ s' := by
  refine ⟨hs.toVisit.same hsame, ?_⟩
  rw [hsame.lane]
  exact hs.clear

theorem Rested.attempted (hs : Rested phy l M s₀ s) : Attempted phy l M s₀ s :=
  ⟨hs.toVisit, fun _ => hs.clear⟩

theorem Attempted.report (hs : Attempted phy l M s₀ s) (n : Notice) :
    Attempted phy l M s₀ (h.report n s).2 := by
  have hnotice := phy.report n hs.sound
  refine ⟨hs.toVisit.same hnotice, ?_⟩
  rw [hnotice.lane]
  exact hs.onward

theorem Showed.of_same {addr w : UInt32} (hw : Showed phy l addr s' w) (hsame : phy.Same s s') :
    Showed phy l addr s w where
  status haddr := hsame.lane ▸ hw.status haddr
  reset haddr := hsame.lane ▸ hw.reset haddr
  pending haddr := hsame.lane ▸ hw.pending haddr

/-! ## Registers of the lane -/

theorem gives_read (hl : phy.isLane l) (hs : phy.sound s) (addr : UInt32) :
    Gives (h.read addr) s fun w s' => phy.Same s s' ∧ Showed phy l addr s w := by
  have hload := phy.load addr hs
  refine ⟨hload.trans (phy.report _ hload.sound), ?_, ?_, ?_⟩
  · rintro rfl
    exact phy.loadStatus hs hl
  · rintro rfl
    exact phy.loadReset hs hl
  · rintro rfl
    exact phy.loadPending hs hl

theorem gives_poll (hl : phy.isLane l) (hs : phy.sound s) (addr mask value : UInt32) (more : Nat) :
    Gives (h.poll addr mask value more) s fun r s' => phy.Same s s' ∧
      match r with
      | .ok w => w &&& mask = value ∧ Showed phy l addr s w
      | .error w => w &&& mask ≠ value ∧ Showed phy l addr s w := by
  refine gives_sampled (W := fun w _ => Showed phy l addr s w) ?_ ?_ mask value more
    ⟨hs, id, rfl, rfl⟩
  · intro s₁ hs₁
    obtain ⟨hsame, hw⟩ := gives_read hl hs₁.sound addr
    exact ⟨hs₁.trans hsame, hw.of_same hs₁⟩
  · intro n w s₁ hs₁ hw
    exact ⟨hs₁.trans (phy.report n hs₁.sound), hw⟩

end

/-! ## Parts of an attempt -/

section
variable {phy : MemoryPhy h} {bus : MessageBus} {lane : UInt8} {M N : PhyMemory → Prop}
  {s₀ s : σ} (hl : phy.isLane (bus.laneOf lane))
include hl

theorem gives_acknowledge (hs : Visit phy (bus.laneOf lane) M s₀ s) :
    Gives (bus.acknowledge h lane) s fun _ s' => Rested phy (bus.laneOf lane) M s₀ s' := by
  have hrevise (x : UInt32) : Gives (h.reviseBits (bus.laneOf lane).status x
      (BusWord.responseReady ||| BusWord.errorSet)) s
        fun _ s' => Rested phy (bus.laneOf lane) M s₀ s' := by
    refine gives_bind (gives_read hl hs.sound _) fun w s₁ hread => ?_
    let value := (w &&& ~~~x) ||| (BusWord.responseReady ||| BusWord.errorSet)
    have hs₁ := (hs.same hread.1).same (phy.report
      (ApertureNotice.registerWrite (bus.laneOf lane).status value) hread.1.sound)
    obtain ⟨hbut, hstatus, hmemory⟩ := phy.storeStatus value hs₁.sound hl
    have hs₂ := hs₁.step hbut (hmemory ▸ hs₁.memory)
    have hclear := congrArg (fun status => status &&& BusWord.responseReady) hstatus
    exact ⟨hs₂, hclear.trans (BusWord.cleared_ready _ _ _)⟩
  exact hrevise 0

theorem gives_writeReset (hs : Visit phy (bus.laneOf lane) M s₀ s) :
    Gives (h.write (bus.laneOf lane).control BusWord.reset) s fun _ s' =>
      Visit phy (bus.laneOf lane) M s₀ s' ∧ (phy.lane s' (bus.laneOf lane)).resetting = false := by
  have hs₁ := hs.same (phy.report
    (ApertureNotice.registerWrite (bus.laneOf lane).control BusWord.reset) hs.sound)
  obtain ⟨hbut, hlane, hmemory⟩ := phy.storeReset hs₁.sound hl
  have hdone := congrArg LaneState.resetting hlane
  exact ⟨hs₁.step hbut (hmemory ▸ hs₁.memory), hdone⟩

theorem gives_resetLane (hs : Visit phy (bus.laneOf lane) M s₀ s) :
    Gives (bus.resetLane h lane) s fun _ s' => Rested phy (bus.laneOf lane) M s₀ s' := by
  refine gives_bind (gives_writeReset hl hs) fun _ s₁ hreset => ?_
  obtain ⟨hs₁, hdone⟩ := hreset
  refine gives_bind (gives_poll hl hs₁.sound _ _ _ _) fun waited s₂ hpolled => ?_
  obtain ⟨hsame, hwaited⟩ := hpolled
  cases waited with
  | error w =>
    have hstands := hwaited.2.reset rfl hwaited.1
    rw [hdone] at hstands
    cases hstands
  | ok w => exact gives_acknowledge hl (hs₁.same hsame)

theorem gives_abandon (hs : Visit phy (bus.laneOf lane) M s₀ s) (n : BusNotice) (e : Failure)
    {Q : α → σ → Prop} : Gives (bus.abandon h lane n e).run s
      (upon Q fun s' => Rested phy (bus.laneOf lane) M s₀ s') :=
  gives_resetLane hl (hs.same (phy.report n hs.sound))

theorem gives_awaitIdle (hs : Visit phy (bus.laneOf lane) M s₀ s) (reason : IdleReason) :
    Gives (bus.awaitIdle h lane reason).run s
      (upon (fun _ s' => phy.Same s s' ∧ (phy.lane s (bus.laneOf lane)).waiting = false)
        fun s' => Rested phy (bus.laneOf lane) M s₀ s') := by
  refine gives_then (gives_call (gives_poll hl hs.sound _ _ _ _)) fun waited s₁ hpolled => ?_
  obtain ⟨hsame, hwaited⟩ := hpolled
  cases waited with
  | error w => exact gives_abandon hl (hs.same hsame) _ _
  | ok w =>
    refine ⟨hsame, ?_⟩
    by_contra hwaits
    exact hwaited.2.pending rfl (Bool.not_eq_false _ ▸ hwaits) hwaited.1

theorem gives_awaitResponse (hs : Visit phy (bus.laneOf lane) M s₀ s) (expected : BusResponse) :
    Gives (bus.awaitResponse h lane expected).run s
      (upon (fun w s' => phy.Same s s' ∧ w = (phy.lane s (bus.laneOf lane)).status ∧
          w &&& BusWord.responseReady ≠ 0 ∧ w &&& BusWord.errorSet = 0 ∧
            BusResponse.ofCode? (BusWord.command.get w) = some expected)
        fun s' => Rested phy (bus.laneOf lane) M s₀ s') := by
  have hresponse := gives_responded expected (gives_poll hl hs.sound (bus.laneOf lane).status)
    fun n e Q s₁ hsame => gives_abandon hl (hs.same hsame) n e
  refine hresponse.imp (fun w s₁ hs₁ => ?_) fun _ => id
  obtain ⟨hsame, hshowed, hready, hnone, hcode⟩ := hs₁
  exact ⟨hsame, hshowed.status rfl hready, hready, hnone, hcode⟩

theorem gives_awaitWritten (hs : Visit phy (bus.laneOf lane) M s₀ s) (committed : Bool) :
    Gives (bus.awaitWritten h lane committed).run s
      (upon (fun _ s' => phy.Same s s' ∧ (committed = true →
          (phy.lane s (bus.laneOf lane)).status &&& BusWord.errorSet = 0))
        fun s' => Rested phy (bus.laneOf lane) M s₀ s') := by
  unfold MessageBus.awaitWritten
  split
  · refine gives_discard (gives_awaitResponse hl hs .writeAck) ?_
    rintro w s₁ ⟨hsame, rfl, -, hnone, -⟩
    exact ⟨hsame, fun _ => hnone⟩
  · next hcommitted =>
    refine gives_then (gives_call (gives_read hl hs.sound _)) fun w s₁ hread => ?_
    split
    · exact gives_abandon hl (hs.same hread.1) _ _
    · exact ⟨hread.1, fun h => absurd h hcommitted⟩

theorem gives_request (hs : Visit phy (bus.laneOf lane) M s₀ s) (c : BusCommand) (addr : UInt16)
    (value : UInt8) :
    Gives (h.write (bus.laneOf lane).control (BusWord.request c addr value)) s fun _ s' =>
      phy.SameBut (bus.laneOf lane) s s' ∧
        Handled c ⟨bus.port, lane, addr &&& 0xFFF⟩ value (phy.lane s (bus.laneOf lane)).status
          (phy.memory s) (phy.lane s' (bus.laneOf lane)).status (phy.memory s')
          (phy.lane s' (bus.laneOf lane)).waiting := by
  have hnotice := phy.report (ApertureNotice.registerWrite (bus.laneOf lane).control
    (BusWord.request c addr value)) hs.sound
  obtain ⟨hbut, hhandled⟩ := phy.storeRequest c addr value hnotice.sound hl
  rw [hnotice.lane, hnotice.memory] at hhandled
  exact ⟨(hnotice.sameBut _).trans hbut, hhandled⟩

/-! ## Attempts -/

theorem gives_attemptRead {addr : UInt16} (hs : Visit phy (bus.laneOf lane) M s₀ s) :
    Gives (bus.attemptRead h lane addr).run s
      (upon (fun value s' => Rested phy (bus.laneOf lane) M s₀ s' ∧
          ((phy.lane s (bus.laneOf lane)).IsClear →
            value = (phy.memory s').answer ⟨bus.port, lane, addr &&& 0xFFF⟩))
        fun s' => Rested phy (bus.laneOf lane) M s₀ s') := by
  refine gives_then (gives_awaitIdle hl hs _) fun _ s₁ hidle => ?_
  have hs₁ := hs.same hidle.1
  refine gives_then (gives_call (gives_request hl hs₁ .read addr 0)) fun _ s₂ hrequest => ?_
  obtain ⟨hbut, hhandled⟩ := hrequest
  have hmemory : phy.memory s₂ = phy.memory s₁ := hhandled.memory_or.elim id id
  have hs₂ := hs₁.step hbut (hmemory ▸ hs₁.memory)
  refine gives_then (gives_awaitResponse hl hs₂ .readAck) fun w s₃ hresponse => ?_
  obtain ⟨hsame, hw, hready, hnone, hcode⟩ := hresponse
  rw [← hw, hidle.1.lane] at hhandled
  -- the memory is pinned, so that it is the same one after the acknowledgement
  have hs₃ : Visit phy (bus.laneOf lane) (fun m => M m ∧ m = phy.memory s₁) s₀ s₃ := by
    have hvisit := hs₂.same hsame
    exact ⟨hvisit.toSameBut, hvisit.memory, hsame.memory.trans hmemory⟩
  refine gives_then (gives_call (gives_acknowledge hl hs₃)) fun _ s₄ hs₄ => ?_
  obtain ⟨hM, hpinned⟩ := hs₄.memory
  refine ⟨⟨⟨hs₄.toSameBut, hM⟩, hs₄.clear⟩, fun hclear => ?_⟩
  show BusWord.byte w = (phy.memory s₄).answer _
  rw [hpinned]
  exact hhandled.byte_of_ready hclear hready hnone hcode

theorem gives_attemptWrite {addr : UInt16} {value : UInt8} {committed : Bool}
    (hstore : ∀ m, M m → N (m.store ⟨bus.port, lane, addr &&& 0xFFF⟩ value)) (hN : ∀ m, N m → M m)
    (hlost : committed = true ∨ ∀ m, M m → N m)
    (hs : Visit phy (bus.laneOf lane) M s₀ s) :
    Gives (bus.attemptWrite h lane addr value committed).run s
      (upon (fun _ s' => Rested phy (bus.laneOf lane) N s₀ s')
        fun s' => Rested phy (bus.laneOf lane) M s₀ s') := by
  refine gives_then (gives_awaitIdle hl hs _) fun _ s₁ hidle => ?_
  have hs₁ := hs.same hidle.1
  let c := if committed then BusCommand.writeCommitted else .writeUncommitted
  have hcarry (m : PhyMemory) (b : PhyByte) : m.carry c b value = m.store b value := by
    cases committed <;> rfl
  refine gives_then (gives_call (gives_request hl hs₁ c addr value)) fun _ s₂ hrequest => ?_
  obtain ⟨hbut, hhandled⟩ := hrequest
  have hstored := hstore _ hs₁.memory
  rw [← hcarry] at hstored
  have hs₂ : Visit phy (bus.laneOf lane) M s₀ s₂ := by
    refine hs₁.step hbut ?_
    rcases hhandled.memory_or with hsame | hsame <;> rw [hsame]
    · exact hs₁.memory
    · exact hN _ hstored
  refine gives_then (gives_awaitIdle hl hs₂ _) fun _ s₃ hidle => ?_
  obtain ⟨hsame₃, hdone⟩ := hidle
  have hs₃ := hs₂.same hsame₃
  refine gives_then (gives_awaitWritten hl hs₃ committed) fun _ s₄ hwritten => ?_
  obtain ⟨hsame₄, hnone⟩ := hwritten
  have hs₄ := hs₃.same hsame₄
  rw [hdone] at hhandled
  have hmemory : N (phy.memory s₄) := by
    rcases hlost with hcommitted | hlost
    · rw [hsame₃.lane] at hnone
      rw [hsame₄.memory, hsame₃.memory, hhandled.memory_of_done (hnone hcommitted)]
      exact hstored
    · exact hlost _ hs₄.memory
  exact gives_acknowledge hl ⟨hs₄.toSameBut, hmemory⟩

end

/-! ## Calls -/

section
variable (phy : MemoryPhy h) (M : PhyMemory → Prop) (s₀ : σ)

structure Passed (s : σ) : Prop where
  sound : phy.sound s
  prompt : phy.prompt s₀ → phy.prompt s
  clear : ∀ l, phy.isLane l → (phy.lane s₀ l).IsClear → (phy.lane s l).IsClear
  memory : M (phy.memory s)

variable {phy M s₀} {N : PhyMemory → Prop} {s s' : σ} {l : BusLane}

theorem Passed.trans (h₁ : Passed phy M s₀ s) (h₂ : Passed phy N s s') : Passed phy N s₀ s' where
  sound := h₂.sound
  prompt hp := h₂.prompt (h₁.prompt hp)
  clear l hl hclear := h₂.clear l hl (h₁.clear l hl hclear)
  memory := h₂.memory

theorem Passed.mono (hs : Passed phy M s₀ s) (hM : ∀ m, M m → N m) : Passed phy N s₀ s :=
  ⟨hs.sound, hs.prompt, hs.clear, hM _ hs.memory⟩

theorem Visit.passed (hs : Visit phy l M s₀ s)
    (hclear : (phy.lane s₀ l).IsClear → (phy.lane s l).IsClear) : Passed phy M s₀ s where
  sound := hs.sound
  prompt := hs.prompt
  clear l' hl' hclear' := by
    by_cases hsame : l' = l
    · rw [hsame] at hclear' ⊢
      exact hclear hclear'
    · rw [hs.lane l' hl' hsame]
      exact hclear'
  memory := hs.memory

theorem Rested.passed (hs : Rested phy l M s₀ s) : Passed phy M s₀ s :=
  hs.toVisit.passed fun _ => hs.clear

theorem Attempted.passed (hs : Attempted phy l M s₀ s) : Passed phy M s₀ s :=
  hs.toVisit.passed hs.onward

theorem attempted_start (hs : phy.sound s₀) (hm : M (phy.memory s₀)) : Attempted phy l M s₀ s₀ :=
  ⟨⟨⟨hs, id, fun _ _ _ => rfl⟩, hm⟩, id⟩

end

section
variable {phy : MemoryPhy h} {bus : MessageBus} {lane : UInt8} {M N : PhyMemory → Prop}
  {s₀ : σ} (hl : phy.isLane (bus.laneOf lane))
include hl

theorem gives_readByte {addr : UInt16} (hs : phy.sound s₀) (hm : M (phy.memory s₀)) :
    Gives (bus.readByte h lane addr).run s₀
      (upon (fun value s => (Passed phy M s₀ s ∧ (phy.lane s (bus.laneOf lane)).IsClear) ∧
          ((phy.lane s₀ (bus.laneOf lane)).IsClear →
            value = (phy.memory s).answer ⟨bus.port, lane, addr &&& 0xFFF⟩))
        fun s => Passed phy M s₀ s) := by
  have hattempt (s : σ) (hs : Attempted phy (bus.laneOf lane) M s₀ s) :
      Gives (do
          let value ← bus.attemptRead h lane addr
          h.report (BusNotice.byteRead bus.port lane addr value)
          return value : Fallible σ UInt8).run s
        (upon (fun value s' => Rested phy (bus.laneOf lane) M s₀ s' ∧
            ((phy.lane s₀ (bus.laneOf lane)).IsClear →
              value = (phy.memory s').answer ⟨bus.port, lane, addr &&& 0xFFF⟩))
          (Attempted phy (bus.laneOf lane) M s₀)) := by
    refine gives_next (gives_attemptRead hl hs.toVisit) (fun s' hs' => hs'.attempted)
      fun value s₁ hread => ?_
    obtain ⟨hs₁, hvalue⟩ := hread
    have hnotice := phy.report (BusNotice.byteRead bus.port lane addr value) hs₁.sound
    refine ⟨hs₁.same hnotice, fun hclear => ?_⟩
    show value = (phy.memory (h.report (BusNotice.byteRead bus.port lane addr value) s₁).2).answer _
    rw [hnotice.memory]
    exact hvalue (hs.onward hclear)
  have hcall := gives_retrying hattempt (fun n s hs => hs.report n) bus lane .read addr
    (attempted_start hs hm)
  exact hcall.imp (fun value s hs => ⟨⟨hs.1.passed, hs.1.clear⟩, hs.2⟩) fun s hs => hs.passed

theorem gives_writeByte {addr : UInt16} {value : UInt8} {committed : Bool}
    (hstore : ∀ m, M m → N (m.store ⟨bus.port, lane, addr &&& 0xFFF⟩ value)) (hN : ∀ m, N m → M m)
    (hlost : committed = true ∨ ∀ m, M m → N m) (hs : phy.sound s₀)
    (hm : M (phy.memory s₀)) :
    Gives (bus.writeByte h lane addr value committed).run s₀
      (upon (fun _ s => Passed phy N s₀ s ∧ (phy.lane s (bus.laneOf lane)).IsClear)
        fun s => Passed phy M s₀ s) := by
  have hattempt (s : σ) (hs : Attempted phy (bus.laneOf lane) M s₀ s) :
      Gives (do
          bus.attemptWrite h lane addr value committed
          h.report (BusNotice.byteWritten bus.port lane addr value) : Fallible σ Unit).run s
        (upon (fun _ s' => Rested phy (bus.laneOf lane) N s₀ s')
          (Attempted phy (bus.laneOf lane) M s₀)) := by
    refine gives_next (gives_attemptWrite hl hstore hN hlost hs.toVisit)
      (fun s' hs' => hs'.attempted) fun _ s₁ hs₁ => ?_
    exact hs₁.same (phy.report _ hs₁.sound)
  have hcall := gives_retrying hattempt (fun n s hs => hs.report n) bus lane .write addr
    (attempted_start hs hm)
  exact hcall.imp (fun _ s hs => ⟨hs.passed, hs.clear⟩) fun s hs => hs.passed

end

end Retune.MemoryPhy
