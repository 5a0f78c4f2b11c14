import Retune.Proofs.BenchMemory
import Retune.Proofs.SramWords

/-!
# Status that shows late

A transaction may be executed and its status show only later, and so hide what
becomes of the next one. Whatever ends with a reset or with a response is on time
again, and an uncommitted write that begins on time is not lost.
-/

namespace Retune

variable {σ : Type}

/-- A PHY of which is known where a status still shows an earlier value. Only an
executed transaction can make it so, and the sight of a response ends it. -/
structure LatePhy (h : Host σ) extends MemoryPhy h where
  late : σ → BusLane → Prop
  reportLate : ∀ {s l} n, sound s → late (h.report n s).2 l → late s l
  loadLate : ∀ {s l} addr, sound s → late (h.load addr s).2 l → late s l
  loadReady : ∀ {s l}, sound s → isLane l →
    (h.load l.status s).1 &&& BusWord.responseReady ≠ 0 → ¬ late s l
  loadOnTime : ∀ {s l}, sound s → isLane l → ¬ late s l →
    (h.load l.status s).1 = (lane s l).status
  resetLate : ∀ {s l}, sound s → isLane l → ¬ late (h.store l.control BusWord.reset s).2 l
  statusLate : ∀ {s l} w, sound s → isLane l → late (h.store l.status w s).2 l → late s l
  requestLate : ∀ {s l} c addr value, sound s → isLane l →
    let s' := (h.store l.control (BusWord.request c addr value) s).2
    late s' l → (lane s' l).status &&& BusWord.errorSet ≠ 0 → late s l

namespace LatePhy
variable {h : Host σ} (phy : LatePhy h) (l : BusLane)

/-- Nothing changed but that the status may show at last. -/
structure Still (s s' : σ) : Prop extends phy.Same s s' where
  late : phy.late s' l → phy.late s l

def Answered (addr w : UInt32) (s : σ) : Prop :=
  addr = l.status → w &&& BusWord.responseReady ≠ 0 → ¬ phy.late s l

variable {phy l} {s s' s'' : σ}

theorem Still.refl (hs : phy.sound s) : phy.Still l s s := ⟨⟨hs, id, rfl, rfl⟩, id⟩

theorem Still.trans (h₁ : phy.Still l s s') (h₂ : phy.Still l s' s'') : phy.Still l s s'' :=
  ⟨h₁.toSame.trans h₂.toSame, fun h => h₁.late (h₂.late h)⟩

theorem still_report (n : Notice) (hs : phy.sound s) : phy.Still l s (h.report n s).2 :=
  ⟨phy.report n hs, phy.reportLate n hs⟩

/-! ## Registers of the lane -/

section
variable (hl : phy.isLane l)
include hl

theorem gives_read (hs : phy.sound s) (addr : UInt32) :
    Gives (h.read addr) s fun w s' => phy.Still l s s' ∧
      phy.Answered l addr w s' ∧ (addr = l.status → ¬ phy.late s l → w = (phy.lane s l).status) := by
  have hload : phy.Still l s (h.load addr s).2 := ⟨phy.load addr hs, phy.loadLate addr hs⟩
  have hread := hload.trans (still_report (ApertureNotice.registerRead addr (h.load addr s).1)
    hload.sound)
  refine ⟨hread, ?_, ?_⟩
  · rintro rfl hready
    exact fun hlate => phy.loadReady hs hl hready (hread.late hlate)
  · rintro rfl
    exact phy.loadOnTime hs hl

theorem gives_poll (hs : phy.sound s) (addr mask value : UInt32) (more : Nat) :
    Gives (h.poll addr mask value more) s fun r s' => phy.Still l s s' ∧
      match r with
      | .ok w => w &&& mask = value ∧ phy.Answered l addr w s'
      | .error w => w &&& mask ≠ value ∧ phy.Answered l addr w s' := by
  refine gives_sampled (W := fun w s' => phy.Answered l addr w s') ?_ ?_ mask value more (.refl hs)
  · intro s₁ hs₁
    obtain ⟨hstill, hready, -⟩ := phy.gives_read hl hs₁.sound addr
    exact ⟨hs₁.trans hstill, hready⟩
  · intro n w s₁ hs₁ hw
    have hreport := still_report (l := l) n hs₁.sound
    exact ⟨hs₁.trans hreport, fun haddr hready hlate => hw haddr hready (hreport.late hlate)⟩

end

/-! ## Parts of an attempt -/

section
variable {bus : MessageBus} {lane : UInt8} {α : Type} (hl : phy.isLane (bus.laneOf lane))
include hl

theorem gives_acknowledge (hs : phy.sound s) :
    Gives (bus.acknowledge h lane) s fun _ s' => phy.sound s' ∧
      (phy.late s' (bus.laneOf lane) → phy.late s (bus.laneOf lane)) := by
  have hrevise (x : UInt32) : Gives (h.reviseBits (bus.laneOf lane).status x
      (BusWord.responseReady ||| BusWord.errorSet)) s fun _ s' => phy.sound s' ∧
        (phy.late s' (bus.laneOf lane) → phy.late s (bus.laneOf lane)) := by
    refine gives_bind (phy.gives_read hl hs _) fun w s₁ hread => ?_
    let value := (w &&& ~~~x) ||| (BusWord.responseReady ||| BusWord.errorSet)
    have hs₁ := hread.1.trans (still_report
      (ApertureNotice.registerWrite (bus.laneOf lane).status value) hread.1.sound)
    obtain ⟨hbut, -, -⟩ := phy.storeStatus value hs₁.sound hl
    exact ⟨hbut.sound, fun hlate => hs₁.late (phy.statusLate value hs₁.sound hl hlate)⟩
  exact hrevise 0

theorem gives_resetLane (hs : phy.sound s) :
    Gives (bus.resetLane h lane) s fun _ s' =>
      phy.sound s' ∧ ¬ phy.late s' (bus.laneOf lane) := by
  have hnotice := phy.report
    (ApertureNotice.registerWrite (bus.laneOf lane).control BusWord.reset) hs
  have hreset := (phy.storeReset hnotice.sound hl).1.sound
  have honTime := phy.resetLate hnotice.sound hl
  refine gives_bind (P := fun _ s' => phy.sound s' ∧ ¬ phy.late s' (bus.laneOf lane))
    ⟨hreset, honTime⟩ fun _ s₁ hs₁ => ?_
  refine gives_bind (phy.gives_poll hl hs₁.1 _ _ _ _) fun waited s₂ hpolled => ?_
  obtain ⟨hstill, -⟩ := hpolled
  have hs₂ : ¬ phy.late s₂ (bus.laneOf lane) := fun hlate => hs₁.2 (hstill.late hlate)
  cases waited with
  | error w =>
    have hreport := still_report (l := bus.laneOf lane) (BusNotice.resetStuck bus.port lane)
      hstill.sound
    exact ⟨hreport.sound, fun hlate => hs₂ (hreport.late hlate)⟩
  | ok w =>
    obtain ⟨hsound, hlate⟩ := phy.gives_acknowledge hl hstill.sound
    exact ⟨hsound, fun h => hs₂ (hlate h)⟩

theorem gives_abandon (hs : phy.sound s) (n : BusNotice) (e : Failure) {Q : α → σ → Prop} :
    Gives (bus.abandon h lane n e).run s
      (upon Q fun s' => phy.sound s' ∧ ¬ phy.late s' (bus.laneOf lane)) :=
  phy.gives_resetLane hl (phy.report n hs).sound

theorem gives_awaitIdle (hs : phy.sound s) (reason : IdleReason) :
    Gives (bus.awaitIdle h lane reason).run s
      (upon (fun _ s' => phy.Still (bus.laneOf lane) s s')
        fun s' => phy.sound s' ∧ ¬ phy.late s' (bus.laneOf lane)) := by
  refine gives_then (gives_call (phy.gives_poll hl hs _ _ _ _)) fun waited s₁ hpolled => ?_
  cases waited with
  | error w => exact phy.gives_abandon hl hpolled.1.sound _ _
  | ok w => exact hpolled.1

theorem gives_awaitResponse (hs : phy.sound s) (expected : BusResponse) :
    Gives (bus.awaitResponse h lane expected).run s
      (upon (fun _ s' => phy.sound s' ∧ ¬ phy.late s' (bus.laneOf lane))
        fun s' => phy.sound s' ∧ ¬ phy.late s' (bus.laneOf lane)) := by
  have hresponse : Gives (bus.awaitResponse h lane expected).run s _ :=
    gives_responded expected (phy.gives_poll hl hs (bus.laneOf lane).status)
      fun n e Q s₁ hstill => phy.gives_abandon hl hstill.sound n e
  refine hresponse.imp (fun w s₁ hs₁ => ?_) fun _ => id
  obtain ⟨hstill, hanswered, hready, -⟩ := hs₁
  exact ⟨hstill.sound, hanswered rfl hready⟩

theorem gives_awaitWritten (hs : phy.sound s) (committed : Bool) :
    Gives (bus.awaitWritten h lane committed).run s
      (upon (fun _ s' => phy.sound s' ∧
          (committed = true → ¬ phy.late s' (bus.laneOf lane)) ∧
            (committed = false → ¬ phy.late s (bus.laneOf lane) →
              (phy.lane s (bus.laneOf lane)).status &&& BusWord.errorSet = 0))
        fun s' => phy.sound s' ∧ ¬ phy.late s' (bus.laneOf lane)) := by
  unfold MessageBus.awaitWritten
  cases committed with
  | true =>
    rw [if_pos rfl]
    refine gives_discard (phy.gives_awaitResponse hl hs .writeAck) fun w s₁ hs₁ => ?_
    exact ⟨hs₁.1, fun _ => hs₁.2, nofun⟩
  | false =>
    rw [if_neg Bool.false_ne_true]
    refine gives_then (gives_call (phy.gives_read hl hs _)) fun w s₁ hread => ?_
    obtain ⟨hstill, -, hshown⟩ := hread
    split
    · exact phy.gives_abandon hl hstill.sound _ _
    · next herror =>
      refine ⟨hstill.sound, nofun, fun _ honTime => ?_⟩
      rw [← hshown rfl honTime]
      simpa using herror

theorem gives_request (hs : phy.sound s) (c : BusCommand) (addr : UInt16) (value : UInt8) :
    Gives (h.write (bus.laneOf lane).control (BusWord.request c addr value)) s fun _ s' =>
      phy.sound s' ∧ (phy.late s' (bus.laneOf lane) →
        (phy.lane s' (bus.laneOf lane)).status &&& BusWord.errorSet ≠ 0 →
          phy.late s (bus.laneOf lane)) := by
  have hnotice : phy.Still (bus.laneOf lane) s _ := still_report
    (ApertureNotice.registerWrite (bus.laneOf lane).control (BusWord.request c addr value)) hs
  exact ⟨(phy.storeRequest c addr value hnotice.sound hl).1.sound, fun hlate herror =>
    hnotice.late (phy.requestLate c addr value hnotice.sound hl hlate herror)⟩

/-! ## Attempts -/

theorem gives_attemptRead {addr : UInt16} (hs : phy.sound s) :
    Gives (bus.attemptRead h lane addr).run s
      (upon (fun _ s' => phy.sound s' ∧ ¬ phy.late s' (bus.laneOf lane))
        fun s' => phy.sound s' ∧ ¬ phy.late s' (bus.laneOf lane)) := by
  refine gives_then (phy.gives_awaitIdle hl hs _) fun _ s₁ hidle => ?_
  refine gives_then (gives_call (phy.gives_request hl hidle.sound .read addr 0)) fun _ s₂ hs₂ => ?_
  refine gives_then (phy.gives_awaitResponse hl hs₂.1 .readAck) fun w s₃ hs₃ => ?_
  refine gives_then (gives_call (phy.gives_acknowledge hl hs₃.1)) fun _ s₄ hs₄ => ?_
  exact ⟨hs₄.1, fun hlate => hs₃.2 (hs₄.2 hlate)⟩

theorem gives_attemptWrite {addr : UInt16} {value : UInt8} (hs : phy.sound s) :
    Gives (bus.attemptWrite h lane addr value true).run s
      (upon (fun _ s' => phy.sound s' ∧ ¬ phy.late s' (bus.laneOf lane))
        fun s' => phy.sound s' ∧ ¬ phy.late s' (bus.laneOf lane)) := by
  refine gives_then (phy.gives_awaitIdle hl hs _) fun _ s₁ hidle => ?_
  refine gives_then (gives_call (phy.gives_request hl hidle.sound .writeCommitted addr value))
    fun _ s₂ hs₂ => ?_
  refine gives_then (phy.gives_awaitIdle hl hs₂.1 _) fun _ s₃ hs₃ => ?_
  refine gives_then (phy.gives_awaitWritten hl hs₃.sound true) fun _ s₄ hs₄ => ?_
  obtain ⟨hsound, hlate⟩ := phy.gives_acknowledge hl hs₄.1
  exact ⟨hsound, fun h => hs₄.2.1 rfl (hlate h)⟩

theorem gives_attemptWrite_onTime {M N : PhyMemory → Prop} {s₀ : σ} {addr : UInt16} {value : UInt8}
    (hstore : ∀ m, M m → N (m.store ⟨bus.port, lane, addr &&& 0xFFF⟩ value)) (hN : ∀ m, N m → M m)
    (hs : MemoryPhy.Visit phy.toMemoryPhy (bus.laneOf lane) M s₀ s)
    (honTime : ¬ phy.late s (bus.laneOf lane)) :
    Gives (bus.attemptWrite h lane addr value false).run s
      (upon (fun _ s' => MemoryPhy.Rested phy.toMemoryPhy (bus.laneOf lane) N s₀ s')
        fun s' => MemoryPhy.Rested phy.toMemoryPhy (bus.laneOf lane) M s₀ s' ∧
          phy.sound s' ∧ ¬ phy.late s' (bus.laneOf lane)) := by
  refine gives_then ((MemoryPhy.gives_awaitIdle hl hs _).both (phy.gives_awaitIdle hl hs.sound _))
    fun _ s₁ hidle => ?_
  obtain ⟨⟨hsame₁, -⟩, hstill₁⟩ := hidle
  have hs₁ := hs.same hsame₁
  have honTime₁ : ¬ phy.late s₁ (bus.laneOf lane) := fun hlate => honTime (hstill₁.late hlate)
  have hrequest := MemoryPhy.gives_request hl hs₁ .writeUncommitted addr value
  refine gives_then (gives_call (hrequest.and
    (phy.gives_request hl hs₁.sound .writeUncommitted addr value))) fun _ s₂ hrequested => ?_
  obtain ⟨⟨hbut, hhandled⟩, -, hlate₂⟩ := hrequested
  have hstored := hstore _ hs₁.memory
  have hs₂ : MemoryPhy.Visit phy.toMemoryPhy (bus.laneOf lane) M s₀ s₂ := by
    refine hs₁.step hbut ?_
    rcases hhandled.memory_or with hsame | hsame <;> rw [hsame]
    · exact hs₁.memory
    · exact hN _ hstored
  refine gives_then ((MemoryPhy.gives_awaitIdle hl hs₂ _).both
    (phy.gives_awaitIdle hl hs₂.sound _)) fun _ s₃ hidle => ?_
  obtain ⟨⟨hsame₃, hdone⟩, hstill₃⟩ := hidle
  have hs₃ := hs₂.same hsame₃
  refine gives_then ((MemoryPhy.gives_awaitWritten hl hs₃ false).both
    (phy.gives_awaitWritten hl hs₃.sound false)) fun _ s₄ hwritten => ?_
  obtain ⟨⟨hsame₄, -⟩, -, -, hnone⟩ := hwritten
  have hs₄ := hs₃.same hsame₄
  -- a refusal would have left the lane on time, and then it would have been seen
  have hnoError : (phy.lane s₂ (bus.laneOf lane)).status &&& BusWord.errorSet = 0 := by
    by_contra herror
    have honTime₃ : ¬ phy.late s₃ (bus.laneOf lane) := fun hlate =>
      honTime₁ (hlate₂ (hstill₃.late hlate) herror)
    rw [← hsame₃.lane] at herror
    exact herror (hnone rfl honTime₃)
  rw [hdone] at hhandled
  have hmemory : N (phy.memory s₄) := by
    rw [hsame₄.memory, hsame₃.memory, hhandled.memory_of_done hnoError]
    exact hstored
  exact MemoryPhy.gives_acknowledge hl ⟨hs₄.toSameBut, hmemory⟩

/-! ## Calls -/

theorem gives_readByte {addr : UInt16} (hs : phy.sound s) :
    Gives (bus.readByte h lane addr).run s
      (upon (fun _ s' => phy.sound s' ∧ ¬ phy.late s' (bus.laneOf lane)) fun s' => phy.sound s') := by
  have hattempt (s : σ) (hs : phy.sound s) :
      Gives (do
          let value ← bus.attemptRead h lane addr
          h.report (BusNotice.byteRead bus.port lane addr value)
          return value : Fallible σ UInt8).run s
        (upon (fun _ s' => phy.sound s' ∧ ¬ phy.late s' (bus.laneOf lane)) phy.sound) := by
    refine gives_next (phy.gives_attemptRead hl hs) (fun s' hs' => hs'.1) fun value s₁ hs₁ => ?_
    have hnotice : phy.Still (bus.laneOf lane) s₁ _ :=
      still_report (BusNotice.byteRead bus.port lane addr value) hs₁.1
    exact ⟨hnotice.sound, fun hlate => hs₁.2 (hnotice.late hlate)⟩
  exact gives_retrying hattempt (fun n s hs => (phy.report n hs).sound) bus lane .read addr hs

theorem gives_writeByte {addr : UInt16} {value : UInt8} (hs : phy.sound s) :
    Gives (bus.writeByte h lane addr value true).run s
      (upon (fun _ s' => phy.sound s' ∧ ¬ phy.late s' (bus.laneOf lane)) fun s' => phy.sound s') := by
  have hattempt (s : σ) (hs : phy.sound s) :
      Gives (do
          bus.attemptWrite h lane addr value true
          h.report (BusNotice.byteWritten bus.port lane addr value) : Fallible σ Unit).run s
        (upon (fun _ s' => phy.sound s' ∧ ¬ phy.late s' (bus.laneOf lane)) phy.sound) := by
    refine gives_next (phy.gives_attemptWrite hl hs) (fun s' hs' => hs'.1) fun _ s₁ hs₁ => ?_
    have hnotice : phy.Still (bus.laneOf lane) s₁ _ :=
      still_report (BusNotice.byteWritten bus.port lane addr value) hs₁.1
    exact ⟨hnotice.sound, fun hlate => hs₁.2 (hnotice.late hlate)⟩
  exact gives_retrying hattempt (fun n s hs => (phy.report n hs).sound) bus lane .write addr hs

theorem gives_writeByte_onTime {M N : PhyMemory → Prop} {s₀ : σ} {addr : UInt16} {value : UInt8}
    (hstore : ∀ m, M m → N (m.store ⟨bus.port, lane, addr &&& 0xFFF⟩ value)) (hN : ∀ m, N m → M m)
    (hs : phy.sound s₀) (hm : M (phy.memory s₀)) (honTime : ¬ phy.late s₀ (bus.laneOf lane)) :
    Gives (bus.writeByte h lane addr value false).run s₀
      (upon (fun _ s => MemoryPhy.Passed phy.toMemoryPhy N s₀ s ∧
          (phy.lane s (bus.laneOf lane)).IsClear)
        fun s => MemoryPhy.Passed phy.toMemoryPhy M s₀ s) := by
  let R (s : σ) : Prop := MemoryPhy.Attempted phy.toMemoryPhy (bus.laneOf lane) M s₀ s ∧
    ¬ phy.late s (bus.laneOf lane)
  have hattempt (s : σ) (hs : R s) :
      Gives (do
          bus.attemptWrite h lane addr value false
          h.report (BusNotice.byteWritten bus.port lane addr value) : Fallible σ Unit).run s
        (upon (fun _ s' => MemoryPhy.Rested phy.toMemoryPhy (bus.laneOf lane) N s₀ s') R) := by
    refine gives_next (phy.gives_attemptWrite_onTime hl hstore hN hs.1.toVisit hs.2)
      (fun s' hs' => ⟨hs'.1.attempted, hs'.2.2⟩) fun _ s₁ hs₁ => ?_
    exact hs₁.same (phy.report _ hs₁.sound)
  have hreport (n : Notice) (s : σ) (hs : R s) : R (h.report n s).2 := by
    have hnotice : phy.Still (bus.laneOf lane) s _ := still_report n hs.1.sound
    exact ⟨hs.1.report n, fun hlate => hs.2 (hnotice.late hlate)⟩
  have hcall := gives_retrying hattempt hreport bus lane .write addr
    ⟨MemoryPhy.attempted_start hs hm, honTime⟩
  exact hcall.imp (fun _ s hs => ⟨hs.passed, hs.clear⟩) fun s hs => hs.1.passed

end

/-! ## Words -/

section
variable {bus : MessageBus} (hl : phy.isLane (bus.laneOf 0))
include hl

omit hl in
theorem gives_writeLane0 {addr : UInt16} {value : UInt8} {committed : Bool} {Q : Unit → σ → Prop}
    {R : σ → Prop} (hx : Gives (bus.writeByte h 0 addr value committed).run s (upon Q R)) :
    Gives (bus.writeLanes h .lane0 addr value committed).run s (upon Q R) :=
  gives_then hx fun _ _ hs => hs

theorem gives_readWord (hs : phy.sound s) (honTime : ¬ phy.late s (bus.laneOf 0)) (addr : UInt16) :
    let W := (phy.memory s).word
    Gives (bus.readWord h .lane0 addr).run s
      (upon (fun w s' => MemoryPhy.Passed phy.toMemoryPhy (fun m => m.word = W) s s' ∧
          w = W ⟨bus.port, addr⟩ ∧ (phy.lane s' (bus.laneOf 0)).IsClear ∧
            ¬ phy.late s' (bus.laneOf 0))
        fun s' => MemoryPhy.Passed phy.toMemoryPhy (fun m => m.word = W) s s') := by
  intro W
  have hword {s₁ s₂ : σ} {K : PhyMemory → Prop} (h₁ : MemoryPhy.Passed phy.toMemoryPhy K s s₁)
      (h₂ : MemoryPhy.Passed phy.toMemoryPhy
        (PhyMemory.Aimed SramWindow.readAddr W bus.port addr) s₁ s₂) :
      MemoryPhy.Passed phy.toMemoryPhy (fun m => m.word = W) s s₂ :=
    (h₁.trans h₂).mono fun _ hm => hm.word
  have hfirst : Gives (bus.writeByte h 0 SramPort.readAddrHigh (MessageBus.highByte addr) false).run
      s _ :=
    phy.gives_writeByte_onTime (M := fun m => m.word = W)
      (N := PhyMemory.HalfAimed SramWindow.readAddr W bus.port addr) hl
      (fun _ => PhyMemory.halfAimed_store (by decide) fun _ _ => rfl) (fun _ hm => hm.word) hs rfl
      honTime
  refine gives_then (gives_writeLane0 hfirst) fun _ s₁ hs₁ => ?_
  obtain ⟨hs₁, -⟩ := hs₁
  have hsecond : Gives (bus.writeByte h 0 SramPort.readAddrLow (MessageBus.lowByte addr) true).run
      s₁ _ :=
    MemoryPhy.gives_writeByte hl (fun _ hm => hm.store (by decide) fun _ _ => rfl)
      (fun _ hm => hm.half) (.inl rfl) hs₁.sound hs₁.memory
  refine gives_next (gives_writeLane0 (hsecond.both (phy.gives_writeByte hl hs₁.sound)))
    (fun s' hs' => (hs₁.trans hs'.1).mono fun _ hm => hm.word) fun _ s₂ hs₂ => ?_
  obtain ⟨⟨hs₂, hclear⟩, -, -⟩ := hs₂
  refine gives_next (MemoryPhy.gives_readByte hl hs₂.sound hs₂.memory)
    (fun s' => hword (hs₁.trans hs₂)) fun high s₃ hread => ?_
  obtain ⟨⟨hs₃, hclear₃⟩, hhigh⟩ := hread
  have hlow : Gives (bus.readByte h 0 SramPort.readDataLow).run s₃ _ :=
    MemoryPhy.gives_readByte hl hs₃.sound hs₃.memory
  refine gives_next (hlow.both (phy.gives_readByte hl hs₃.sound))
    (fun s' hs' => hword (hs₁.trans (hs₂.trans hs₃)) hs'.1) fun low s₄ hread => ?_
  obtain ⟨⟨⟨hs₄, hclear₄⟩, hlow⟩, -, honTime₄⟩ := hread
  refine ⟨hword (hs₁.trans (hs₂.trans hs₃)) hs₄, ?_, hclear₄, honTime₄⟩
  rw [hhigh hclear, hlow hclear₃]
  show MessageBus.ofBytes ((phy.memory s₃).answer ⟨bus.port, 0, SramPort.readDataHigh &&& 0xFFF⟩)
    ((phy.memory s₄).answer ⟨bus.port, 0, SramPort.readDataLow &&& 0xFFF⟩) = _
  rw [hs₃.memory.answer_high, hs₄.memory.answer_low, MessageBus.ofBytes_bytes]

end

end LatePhy

/-! ## Simulated hardware -/

namespace Hardware
variable {ports : Nat} {l : BusLane} {hw : Hardware}

def IsLate (hw : Hardware) (l : BusLane) : Prop :=
  ∃ left value, hw.lags.get? l.status = some ⟨left + 1, value⟩

theorem isLate_read (hs : Sound ports hw) {addr : UInt32} (hlate : (hw.read addr).2.IsLate l) :
    hw.IsLate l := by
  obtain ⟨left, value, hlag⟩ := hlate
  unfold Hardware.read at hlag
  rw [hs.queued addr] at hlag
  dsimp only at hlag
  split at hlag
  · next left' value' hlag' =>
    rw [Store.get?_set] at hlag
    split at hlag
    · next heq => exact ⟨left', value', heq ▸ hlag'⟩
    · exact ⟨left, value, hlag⟩
  · exact ⟨left, value, hlag⟩

theorem read_of_not_late (hs : Sound ports hw) (honTime : ¬ hw.IsLate l) :
    (hw.read l.status).1 = hw.register l.status := by
  unfold Hardware.read
  rw [hs.queued l.status]
  dsimp only
  split
  · next left value hlag => exact absurd ⟨left, value, hlag⟩ honTime
  · rfl

theorem clear_of_late (hs : Sound ports hw) (hl : HasLane ports l) (hlate : hw.IsLate l) :
    (hw.read l.status).1 &&& BusWord.responseReady = 0 := by
  obtain ⟨left, value, hlag⟩ := hlate
  unfold Hardware.read
  rw [hs.queued l.status]
  dsimp only
  rw [hlag]
  exact hs.statusLags l hl _ hlag

/-- Only what has been executed shows late, and an execution ends without an error. -/
theorem late_of_request (hports : ports ≤ 256) (hl : HasLane ports l) (hs : Sound ports hw)
    (c : BusCommand) (addr : UInt16) (value : UInt8) :
    let hw' := (hw.write l.control (BusWord.request c addr value)).2
    hw'.IsLate l → hw'.register l.status &&& BusWord.errorSet ≠ 0 → hw.IsLate l := by
  intro hw'
  let word := BusWord.request c addr value
  let hw₁ : Hardware := { hw with faults := hw.faults.tail }
  have hwritten : hw' = hw₁.transact ⟨l.port, l.lane, false⟩ word c (hw.faults.headD .ok) :=
    congrArg Prod.snd (write_request hports hl hs c addr value)
  have hfinish (swap : Bool) := finish_rest hw₁ l c
    ⟨l.port, l.lane, (BusWord.address.get word).toUInt16⟩ (BusWord.byte word) swap
    (word &&& ~~~BusWord.pending)
  rw [hwritten]
  cases hw.faults.headD .ok with
  | ok =>
    rintro ⟨left, value, hlag⟩ -
    exact ⟨left, value, (hfinish false).2.2.1 ▸ hlag⟩
  | swap =>
    rintro ⟨left, value, hlag⟩ -
    exact ⟨left, value, (hfinish true).2.2.1 ▸ hlag⟩
  | hang => exact fun hlate _ => hlate
  | refuse w => exact fun hlate _ => hlate
  | delay n =>
    intro _ herror
    refine absurd ?_ herror
    show (hw₁.finish l c _ _ false (word &&& ~~~BusWord.pending)).register l.status &&& _ = 0
    rw [register_finish, if_neg (control_ne_status hports hl hl), if_pos rfl]
    exact c.reply_error _ _

end Hardware

namespace Played
variable {ports : Nat}

def latePhy (ports : Nat) (hports : ports ≤ 256) : LatePhy host where
  toMemoryPhy := memoryPhy ports hports
  late p l := p.hardware.IsLate l
  reportLate _ _ := id
  loadLate _ hs := Hardware.isLate_read hs.toSound
  loadReady hs hl hready hlate := hready (Hardware.clear_of_late hs.toSound hl hlate)
  loadOnTime hs _ := Hardware.read_of_not_late hs.toSound
  resetLate {p l} hs hl hlate := by
    obtain ⟨left, value, hlag⟩ := hlate
    have hreset : (host.store l.control BusWord.reset p).2.hardware = _ :=
      Hardware.write_reset_done hports hl hs
    rw [hreset] at hlag
    have hnone := Store.get?_erase (p.hardware.lags.erase l.control) l.status l.status
    rw [if_pos rfl] at hnone
    rw [show ((p.hardware.lags.erase l.control).erase l.status).get? l.status = _ from hlag] at hnone
    cases hnone
  statusLate {p l} w hs hl hlate := by
    obtain ⟨left, value, hlag⟩ := hlate
    have hstatus : (host.store l.status w p).2.hardware = _ :=
      congrArg Prod.snd (Hardware.write_status hports hl hs.toSound w)
    rw [hstatus] at hlag
    exact ⟨left, value, hlag⟩
  requestLate c addr value hs hl := Hardware.late_of_request hports hl hs.toSound c addr value

end Played

end Retune
