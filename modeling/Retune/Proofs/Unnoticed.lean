import Retune.Proofs.Accesses
import Retune.Proofs.Bytes

/-!
# Refusals that go unnoticed

After an uncommitted write the status register is looked at once. If it still shows an
earlier status then, the refusal of the write goes unnoticed. A watched host takes note
of that and is otherwise the host: where nothing goes unnoticed, an uncommitted write
that succeeds has stored its byte.
-/

namespace Retune

variable {σ ρ α : Type}

/-! ## Watched hosts -/

def BusWord.isUncommitted (w : UInt32) : Bool :=
  w &&& pending != 0 && command.get w == BusCommand.writeUncommitted.code

/-- A world with the lanes of a port whose last transaction was an uncommitted write, and
whether the refusal of one was missed. -/
structure Watched (σ : Type) where
  world : σ
  uncommitted : UInt8 → Bool
  missed : Bool

def Watched.start (s : σ) : Watched σ := ⟨s, fun _ => false, false⟩

namespace MemoryPhy
variable {h : Host σ} (phy : MemoryPhy h) (port : UInt32)

/-- The register is the status of a lane after an uncommitted write and shows no error
where there is one. -/
def hides (addr : UInt32) (r : Watched σ) (lane : UInt8) : Bool :=
  r.uncommitted lane && addr == statusRegister port lane &&
    (phy.lane r.world ⟨port, lane⟩).status &&& BusWord.errorSet != 0 &&
      (h.load addr r.world).1 &&& BusWord.errorSet == 0

def watch : Host (Watched σ) where
  stopRequested signal r :=
    ((h.stopRequested signal r.world).1, { r with world := (h.stopRequested signal r.world).2 })
  report n r := ((), { r with world := (h.report n r.world).2 })
  pause ms r := ((), { r with world := (h.pause ms r.world).2 })
  load addr r :=
    ((h.load addr r.world).1, { r with
      world := (h.load addr r.world).2
      missed := r.missed || [0, 1].any (phy.hides port addr r) })
  store addr value r :=
    ((), { r with
      world := (h.store addr value r.world).2
      uncommitted := fun lane =>
        if addr = controlRegister port lane then BusWord.isUncommitted value
        else r.uncommitted lane })

/-- A refusal on the port goes unnoticed when `x` runs from `s`. -/
def Unnoticed (x : ∀ {ρ : Type}, Host ρ → Fallible ρ α) (s : σ) : Prop :=
  ((x (phy.watch port)).run (.start s)).2.missed = true

instance (x : ∀ {ρ : Type}, Host ρ → Fallible ρ α) (s : σ) : Decidable (phy.Unnoticed port x s) :=
  inferInstanceAs (Decidable (_ = true))

theorem parallel_watch : (phy.watch port).Parallel h fun _ x' x =>
    Carries Watched.world x' x ∧ ∀ r, r.missed = true → (x' r).2.missed = true where
  done _ := ⟨fun _ => rfl, fun _ => id⟩
  chain hx hf := ⟨carries_bind hx.1 fun a => (hf a).1, fun r hr => (hf _).2 _ (hx.2 r hr)⟩
  report _ := ⟨fun _ => rfl, fun _ => id⟩
  load _ := ⟨fun _ => rfl, fun _ hr => Bool.or_eq_true _ _ ▸ .inl hr⟩
  store _ _ := ⟨fun _ => rfl, fun _ => id⟩

def watched : MemoryPhy (phy.watch port) where
  isLane := phy.isLane
  sound r := phy.sound r.world
  prompt r := phy.prompt r.world ∧ (∀ lane, lane = 0 ∨ lane = 1 → phy.isLane ⟨port, lane⟩) ∧
    r.missed = false
  lane r := phy.lane r.world
  memory r := phy.memory r.world
  report n hs := ⟨(phy.report n hs).sound, .imp_left (phy.report n hs).prompt, (phy.report n hs).lane,
    (phy.report n hs).memory⟩
  load {r} addr hs := by
    have hload := phy.load addr hs
    refine ⟨hload.sound, fun ⟨hp, hport, hnone⟩ => ⟨hload.prompt hp, hport, ?_⟩, hload.lane,
      hload.memory⟩
    -- an error that is there shows on a prompt PHY, so none is hidden
    show (r.missed || [0, 1].any (phy.hides port addr r)) = false
    rw [hnone, Bool.false_or, List.any_eq_false]
    intro lane hlane hhides
    simp only [hides, Bool.and_eq_true, beq_iff_eq, bne_iff_ne] at hhides
    obtain ⟨⟨⟨-, rfl⟩, herror⟩, hshown⟩ := hhides
    exact phy.loadError hs (hport lane (List.mem_pair.mp hlane)) hp herror hshown
  loadStatus hs hl := phy.loadStatus hs hl
  loadError hs hl hp := phy.loadError hs hl hp.1
  loadReset hs hl := phy.loadReset hs hl
  loadPending hs hl := phy.loadPending hs hl
  storeReset hs hl :=
    have hstore := phy.storeReset hs hl
    ⟨⟨hstore.1.sound, .imp_left hstore.1.prompt, hstore.1.lane⟩, hstore.2⟩
  storeStatus w hs hl :=
    have hstore := phy.storeStatus w hs hl
    ⟨⟨hstore.1.sound, .imp_left hstore.1.prompt, hstore.1.lane⟩, hstore.2⟩
  storeRequest c addr value hs hl :=
    have hstore := phy.storeRequest c addr value hs hl
    ⟨⟨hstore.1.sound, .imp_left hstore.1.prompt, hstore.1.lane⟩, hstore.2⟩

end MemoryPhy

namespace MemoryPhy
variable {h : Host σ} {phy : MemoryPhy h} {M : PhyMemory → Prop} {s : σ} {r : Watched σ}

section
variable {port : UInt32} (hport : ∀ lane, lane = 0 ∨ lane = 1 → phy.isLane ⟨port, lane⟩)
  (hr : Passed (phy.watched port) M (.start s) r)
include hport hr

theorem Passed.unwatched : Passed phy M s r.world :=
  ⟨hr.sound, fun hp => (hr.prompt ⟨hp, hport, rfl⟩).1, hr.clear, hr.memory⟩

theorem Passed.noticed (hp : phy.prompt s) : r.missed = false := (hr.prompt ⟨hp, hport, rfl⟩).2.2

end

theorem gives_noticed {port : UInt32} {x : ∀ {ρ : Type}, Host ρ → Fallible ρ α}
    (hx : Carries Watched.world (x (phy.watch port)).run (x h).run)
    (hnoticed : ¬ phy.Unnoticed port x s) {P : α → σ → Prop} {R : σ → Prop}
    (hgives : Gives (x (phy.watch port)).run (.start s)
      (upon (fun a r => r.missed = true ∨ P a r.world) fun r => r.missed = true ∨ R r.world)) :
    Gives (x h).run s (upon P R) := by
  refine Gives.carried (hx (.start s)) ?_
  unfold Unnoticed at hnoticed
  unfold Gives at hgives ⊢
  rcases hrun : (x (phy.watch port)).run (.start s) with ⟨e | a, r⟩ <;>
    rw [hrun] at hgives hnoticed <;> exact hgives.resolve_left hnoticed

end MemoryPhy

/-! ## Parts of an attempt -/

namespace MemoryPhy
variable {h : Host σ} {phy : MemoryPhy h} {bus : MessageBus} {lane : UInt8} {M N : PhyMemory → Prop}
  {r₀ r : Watched σ}

theorem gives_awaitIdle_uncommitted (reason : IdleReason) :
    Gives (bus.awaitIdle (phy.watch bus.port) lane reason).run r
      (upon (fun _ r' => r'.uncommitted = r.uncommitted) fun _ => True) := by
  let I (r' : Watched σ) : Prop := r'.uncommitted = r.uncommitted
  have hread (addr : UInt32) (r' : Watched σ) (hr' : I r') :
      Gives ((phy.watch bus.port).read addr) r' fun _ r'' => I r'' ∧ True := ⟨hr', trivial⟩
  refine gives_then (gives_call (gives_sampled (hread _) (fun _ _ _ hr' _ => ⟨hr', trivial⟩) _ _ _ rfl))
    fun waited r₁ hr₁ => ?_
  cases waited with
  | error w => exact gives_next (P := fun _ _ => True) trivial (fun _ => id) fun _ _ _ => trivial
  | ok w => exact hr₁.1

theorem gives_request_uncommitted (addr : UInt16) (value : UInt8) :
    Gives ((phy.watch bus.port).write (bus.laneOf lane).control
      (BusWord.request .writeUncommitted addr value)) r fun _ r' => r'.uncommitted lane = true := by
  have hpending : (BusWord.request .writeUncommitted addr value &&& BusWord.pending != 0) = true :=
    bne_iff_ne.mpr (BusWord.request_pending _ _ _)
  have hcode : (BusWord.command.get (BusWord.request .writeUncommitted addr value) ==
      BusCommand.writeUncommitted.code) = true := beq_iff_eq.mpr (BusWord.command_request _ _ _)
  show (if controlRegister bus.port lane = controlRegister bus.port lane then _ else _) = true
  rw [if_pos rfl, BusWord.isUncommitted, hpending, hcode]
  rfl

section
variable (hl : (phy.watched bus.port).isLane (bus.laneOf lane)) (hlane : lane = 0 ∨ lane = 1)
include hl hlane

theorem gives_look (hr : Visit (phy.watched bus.port) (bus.laneOf lane) M r₀ r)
    (hasked : r.uncommitted lane = true) :
    Gives (bus.awaitWritten (phy.watch bus.port) lane false).run r
      (upon (fun _ r' => (phy.watched bus.port).Same r r' ∧ (r'.missed = true ∨
          ((phy.watched bus.port).lane r (bus.laneOf lane)).status &&& BusWord.errorSet = 0))
        fun r' => Rested (phy.watched bus.port) (bus.laneOf lane) M r₀ r') := by
  unfold MessageBus.awaitWritten
  rw [if_neg Bool.false_ne_true]
  have hread : Gives ((phy.watch bus.port).read (bus.laneOf lane).status) r fun w r' =>
      (phy.watched bus.port).Same r r' ∧ (w &&& BusWord.errorSet = 0 → r'.missed = true ∨
        ((phy.watched bus.port).lane r (bus.laneOf lane)).status &&& BusWord.errorSet = 0) := by
    refine ⟨(gives_read hl hr.sound _).1, fun hshown => ?_⟩
    by_cases herror : (phy.lane r.world (bus.laneOf lane)).status &&& BusWord.errorSet = 0
    · exact .inr herror
    · have hhides : phy.hides bus.port (bus.laneOf lane).status r lane = true := by
        simp only [hides, Bool.and_eq_true, beq_iff_eq, bne_iff_ne]
        exact ⟨⟨⟨hasked, rfl⟩, herror⟩, hshown⟩
      refine .inl ((Bool.or_eq_true _ _).mpr (.inr ?_))
      exact List.any_eq_true.mpr ⟨lane, List.mem_pair.mpr hlane, hhides⟩
  refine gives_then (gives_call hread) fun w r₁ hr₁ => ?_
  obtain ⟨hsame, hshown⟩ := hr₁
  split
  · exact gives_abandon hl (hr.same hsame) _ _
  · next herror => exact ⟨hsame, hshown (by simpa using herror)⟩

theorem gives_attemptWrite_watched {addr : UInt16} {value : UInt8}
    (hstore : ∀ m, M m → N (m.store ⟨bus.port, lane, addr &&& 0xFFF⟩ value)) (hN : ∀ m, N m → M m)
    (hr : Visit (phy.watched bus.port) (bus.laneOf lane) M r₀ r) :
    Gives (bus.attemptWrite (phy.watch bus.port) lane addr value false).run r
      (upon (fun _ r' => Rested (phy.watched bus.port) (bus.laneOf lane) M r₀ r' ∧
          (r'.missed = true ∨ N (phy.memory r'.world)))
        fun r' => Rested (phy.watched bus.port) (bus.laneOf lane) M r₀ r') := by
  refine gives_then (gives_awaitIdle hl hr _) fun _ r₁ hidle => ?_
  have hr₁ := hr.same hidle.1
  refine gives_then (gives_call ((gives_request hl hr₁ .writeUncommitted addr value).and
    (gives_request_uncommitted addr value))) fun _ r₂ hrequest => ?_
  obtain ⟨⟨hbut, hhandled⟩, hasked⟩ := hrequest
  have hstored := hstore _ hr₁.memory
  have hr₂ : Visit (phy.watched bus.port) (bus.laneOf lane) M r₀ r₂ := by
    refine hr₁.step hbut ?_
    rcases hhandled.memory_or with hsame | hsame <;> rw [hsame]
    · exact hr₁.memory
    · exact hN _ hstored
  refine gives_next ((gives_awaitIdle hl hr₂ _).both (gives_awaitIdle_uncommitted _))
    (fun _ => And.left) fun _ r₃ hidle => ?_
  obtain ⟨⟨hsame₃, hdone⟩, hkept⟩ := hidle
  have hr₃ := hr₂.same hsame₃
  refine gives_then (gives_look hl hlane hr₃ (hkept ▸ hasked)) fun _ r₄ hlook => ?_
  obtain ⟨hsame₄, hnone⟩ := hlook
  have hr₄ := hr₃.same hsame₄
  -- a refusal that was missed stays missed, and without one the byte has been stored
  rcases hnone with hmissed | hnone
  · have hacknowledged := ((phy.parallel_watch bus.port).acknowledge bus lane).2 r₄ hmissed
    exact ⟨gives_acknowledge hl hr₄, .inl hacknowledged⟩
  · rw [hdone] at hhandled
    rw [hsame₃.lane] at hnone
    have hmemory : N ((phy.watched bus.port).memory r₄) := by
      rw [hsame₄.memory, hsame₃.memory, hhandled.memory_of_done hnone]
      exact hstored
    have hr₅ := gives_acknowledge hl ⟨hr₄.toSameBut, hmemory⟩
    exact ⟨⟨⟨hr₅.toSameBut, hN _ hr₅.memory⟩, hr₅.clear⟩, .inr hr₅.memory⟩

theorem gives_writeUncommitted {addr : UInt16} {value : UInt8}
    (hstore : ∀ m, M m → N (m.store ⟨bus.port, lane, addr &&& 0xFFF⟩ value)) (hN : ∀ m, N m → M m)
    (hs : (phy.watched bus.port).sound r₀) (hm : M (phy.memory r₀.world)) :
    Gives (bus.writeByte (phy.watch bus.port) lane addr value false).run r₀
      (upon (fun _ r => Passed (phy.watched bus.port) M r₀ r ∧
          (r.missed = true ∨ N (phy.memory r.world)) ∧
          ((phy.watched bus.port).lane r (bus.laneOf lane)).IsClear)
        fun r => Passed (phy.watched bus.port) M r₀ r) := by
  have hattempt (r : Watched σ) (hr : Attempted (phy.watched bus.port) (bus.laneOf lane) M r₀ r) :
      Gives (do
          bus.attemptWrite (phy.watch bus.port) lane addr value false
          (phy.watch bus.port).report (BusNotice.byteWritten bus.port lane addr value) :
            Fallible (Watched σ) Unit).run r
        (upon (fun _ r' => Rested (phy.watched bus.port) (bus.laneOf lane) M r₀ r' ∧
          (r'.missed = true ∨ N (phy.memory r'.world)))
            (Attempted (phy.watched bus.port) (bus.laneOf lane) M r₀)) := by
    refine gives_next (gives_attemptWrite_watched hl hlane hstore hN hr.toVisit)
      (fun r' hr' => hr'.attempted) fun _ r₁ hr₁ => ?_
    have hnotice := (phy.watched bus.port).report
      (BusNotice.byteWritten bus.port lane addr value) hr₁.1.sound
    exact ⟨hr₁.1.same hnotice, hr₁.2.imp_right (congrArg N hnotice.memory).mpr⟩
  have hcall := gives_retrying hattempt (fun n r hr => hr.report n) bus lane .write addr
    (attempted_start hs hm)
  exact hcall.imp (fun _ r hr => ⟨hr.1.passed, hr.2, hr.1.clear⟩) fun r hr => hr.passed

end

/-! ## Calls -/

/-- After watched calls from `r₀`, whatever was missed, the memory is in `K`, and in `M`
if nothing was. -/
structure Seen (phy : MemoryPhy h) (port : UInt32) (K M : PhyMemory → Prop) (r₀ r : Watched σ) :
    Prop extends Passed (phy.watched port) K r₀ r where
  told : r.missed = true ∨ M (phy.memory r.world)

variable {K : PhyMemory → Prop} {port : UInt32} {r' : Watched σ}

theorem Seen.trans (h₁ : Seen phy port K M r₀ r) (h₂ : Seen phy port K N r r') :
    Seen phy port K N r₀ r' :=
  ⟨h₁.toPassed.trans h₂.toPassed, h₂.told⟩

theorem Seen.mono (hr : Seen phy port K M r₀ r) (hM : ∀ m, M m → N m) : Seen phy port K N r₀ r :=
  ⟨hr.toPassed, hr.told.imp_right (hM _)⟩

theorem Seen.onTime (hport : ∀ lane, lane = 0 ∨ lane = 1 → phy.isLane ⟨port, lane⟩) {s : σ}
    (hr : Seen phy port K M (.start s) r) (hp : phy.prompt s) : Passed phy M s r.world := by
  refine { hr.unwatched hport with memory := hr.told.resolve_left ?_ }
  rw [hr.noticed hport hp]
  exact Bool.false_ne_true

theorem gives_onward {x' : Fallible (Watched σ) α} {x : Fallible σ α}
    (hx : Carries Watched.world x'.run x.run ∧ ∀ r, r.missed = true → (x'.run r).2.missed = true)
    (r : Watched σ) : Gives x'.run r (upon (fun _ r' => r.missed = true → r'.missed = true)
      fun r' => r.missed = true → r'.missed = true) := by
  have honward := hx.2 r
  unfold Gives
  rcases hrun : x'.run r with ⟨e | a, r'⟩ <;> rw [hrun] at honward <;> exact honward

theorem gives_writeByte_watched (hl : (phy.watched bus.port).isLane (bus.laneOf lane))
    (hlane : lane = 0 ∨ lane = 1) {addr : UInt16} {value : UInt8} {committed : Bool}
    (hkeep : ∀ m, K m → K (m.store ⟨bus.port, lane, addr &&& 0xFFF⟩ value))
    (hstore : ∀ m, M m → N (m.store ⟨bus.port, lane, addr &&& 0xFFF⟩ value))
    (hN : ∀ m, N m → M m) (hM : ∀ m, M m → K m) (hs : (phy.watched bus.port).sound r₀)
    (hk : K (phy.memory r₀.world)) (hm : r₀.missed = true ∨ M (phy.memory r₀.world)) :
    Gives (bus.writeByte (phy.watch bus.port) lane addr value committed).run r₀
      (upon (fun _ r => Seen phy bus.port K N r₀ r ∧
          ((phy.watched bus.port).lane r (bus.laneOf lane)).IsClear)
        fun r => Seen phy bus.port K M r₀ r) := by
  -- once something was missed only `K` is known of the memory, which every write keeps
  rcases hm with hmissed | hm
  · have hkept : Gives (bus.writeByte (phy.watch bus.port) lane addr value committed).run r₀ _ :=
      gives_writeByte hl hkeep (fun _ => id) (.inr fun _ => id) hs hk
    have honward :=
      gives_onward ((phy.parallel_watch bus.port).writeByte bus lane addr value committed) r₀
    exact (hkept.both honward).imp (fun _ r hr => ⟨⟨hr.1.1, .inl (hr.2 hmissed)⟩, hr.1.2⟩)
      fun r hr => ⟨hr.1, .inl (hr.2 hmissed)⟩
  · have hweaken (r : Watched σ) (hr : Passed (phy.watched bus.port) M r₀ r) :
        Seen phy bus.port K M r₀ r :=
      ⟨hr.mono hM, .inr hr.memory⟩
    cases committed with
    | true =>
      refine (gives_writeByte hl hstore hN (.inl rfl) hs hm).imp (fun _ r hr => ⟨?_, hr.2⟩) hweaken
      exact ⟨hr.1.mono fun m hm => hM m (hN m hm), .inr hr.1.memory⟩
    | false =>
      exact (gives_writeUncommitted hl hlane hstore hN hs hm).imp
        (fun _ r hr => ⟨⟨hr.1.mono hM, hr.2.1⟩, hr.2.2⟩) hweaken

end MemoryPhy

end Retune
