import Retune.Proofs.BenchMemory
import Retune.Proofs.Unnoticed

/-!
# Words of SRAM under faults

A word is reached through byte registers: two for its address, which is shared by the
lanes of a port, and two for its halves, the last of which stores it. Only that one is
acknowledged. Unless a refusal goes unnoticed, a word is never stored to an address that
is half written, nor with an old half, and what was written is read back.
-/

namespace Retune

/-! ## Lanes -/

def LaneSet.IsProper (m : LaneSet) : Prop := m.bits ≠ 0 ∧ m.bits ≤ 3

instance (m : LaneSet) : Decidable m.IsProper :=
  inferInstanceAs (Decidable (m.bits ≠ 0 ∧ m.bits ≤ 3))

theorem LaneSet.highest_mem {m : LaneSet} (hm : m.IsProper) : m.highest ∈ m.toList := by
  have hall : ∀ bits : UInt8, bits ≠ 0 → bits ≤ 3 →
      (LaneSet.mk bits).highest ∈ (LaneSet.mk bits).toList := by decide +kernel
  exact hall m.bits hm.1 hm.2

theorem LaneSet.zero_or_one {m : LaneSet} {lane : UInt8} (hlane : lane ∈ m.toList) :
    lane = 0 ∨ lane = 1 :=
  List.mem_pair.mp (List.mem_filter.mp hlane).1

/-! ## Ways to a word -/

namespace PhyMemory
variable {pointer : SramWindow → UInt16} {W : SramWord → UInt16} {port : UInt32} {lane : UInt8}
  {addr value reg : UInt16} {m : PhyMemory}

/-- The words are `W`, and the high half of an indirect address is that of `addr`. -/
structure HalfAimed (pointer : SramWindow → UInt16) (W : SramWord → UInt16) (port : UInt32)
    (addr : UInt16) (m : PhyMemory) : Prop where
  word : m.word = W
  high : MessageBus.highByte (pointer (m.window port)) = MessageBus.highByte addr

structure Aimed (pointer : SramWindow → UInt16) (W : SramWord → UInt16) (port : UInt32)
    (addr : UInt16) (m : PhyMemory) : Prop where
  word : m.word = W
  aim : pointer (m.window port) = addr

/-- The low data byte of `value` is all that is missing at `addr`. -/
structure Loaded (ws : (SramWord → UInt16) → Prop) (port : UInt32) (addr value : UInt16)
    (m : PhyMemory) : Prop where
  word : ws m.word
  aim : (m.window port).writeAddr = addr
  high : (m.window port).writeHigh = MessageBus.highByte value

theorem Aimed.half (hm : Aimed pointer W port addr m) : HalfAimed pointer W port addr m :=
  ⟨hm.word, congrArg _ hm.aim⟩

theorem halfAimed_store (hreg : reg ≠ SramPort.writeDataLow)
    (hpointer : ∀ s : SramWindow, ∀ v,
      pointer (s.write reg v) = MessageBus.ofBytes v (MessageBus.lowByte (pointer s)))
    (hm : m.word = W) : HalfAimed pointer W port addr
      (m.store ⟨port, lane, reg⟩ (MessageBus.highByte addr)) := by
  refine ⟨(m.word_store _ _ _ hreg).trans hm, ?_⟩
  rw [m.window_store, hpointer, MessageBus.highByte_ofBytes]

theorem HalfAimed.store (hm : HalfAimed pointer W port addr m)
    (hreg : reg ≠ SramPort.writeDataLow)
    (hpointer : ∀ s : SramWindow, ∀ v,
      pointer (s.write reg v) = MessageBus.ofBytes (MessageBus.highByte (pointer s)) v) :
    Aimed pointer W port addr (m.store ⟨port, lane, reg⟩ (MessageBus.lowByte addr)) := by
  refine ⟨(m.word_store _ _ _ hreg).trans hm.word, ?_⟩
  rw [m.window_store, hpointer, hm.high, MessageBus.ofBytes_bytes]

theorem Aimed.answer_high (hm : Aimed SramWindow.readAddr W port addr m) :
    m.answer ⟨port, lane, SramPort.readDataHigh &&& 0xFFF⟩ =
      MessageBus.highByte (W ⟨port, addr⟩) := by
  show MessageBus.highByte (m.word ⟨port, (m.window port).readAddr⟩) = _
  rw [hm.aim, hm.word]

theorem Aimed.answer_low (hm : Aimed SramWindow.readAddr W port addr m) :
    m.answer ⟨port, lane, SramPort.readDataLow &&& 0xFFF⟩ =
      MessageBus.lowByte (W ⟨port, addr⟩) := by
  show MessageBus.lowByte (m.word ⟨port, (m.window port).readAddr⟩) = _
  rw [hm.aim, hm.word]

theorem Aimed.store (hm : Aimed SramWindow.writeAddr W port addr m) :
    Loaded (· = W) port addr value (m.store
      ⟨port, lane, SramPort.writeDataHigh &&& 0xFFF⟩ (MessageBus.highByte value)) := by
  refine ⟨(m.word_store _ _ _ (by decide)).trans hm.word, ?_, ?_⟩ <;> rw [m.window_store]
  · exact hm.aim
  · rfl

theorem Loaded.store
    (hm : Loaded (fun w => w = W ∨ w = Function.update W ⟨port, addr⟩ value) port addr value m) :
    Loaded (· = Function.update W ⟨port, addr⟩ value) port addr value (m.store
      ⟨port, lane, SramPort.writeDataLow &&& 0xFFF⟩ (MessageBus.lowByte value)) := by
  refine ⟨?_, ?_, ?_⟩
  · show Function.update m.word ⟨port, (m.window port).writeAddr⟩
      (MessageBus.ofBytes (m.window port).writeHigh (MessageBus.lowByte value)) = _
    rw [hm.aim, hm.high, MessageBus.ofBytes_bytes]
    rcases hm.word with hword | hword <;> rw [hword]
    exact Function.update_idem _ _ _
  · rw [m.window_store]
    exact hm.aim
  · rw [m.window_store]
    exact hm.high

end PhyMemory

namespace MemoryPhy

variable {σ : Type} {h : Host σ} {phy : MemoryPhy h} {bus : MessageBus} {K M N : PhyMemory → Prop}

section
variable {addr : UInt16} {value : UInt8} {committed : Bool} (hM : ∀ m, M m → K m)
  (hN : ∀ m, N m → M m) (hkeep : ∀ lane m, K m → K (m.store ⟨bus.port, lane, addr &&& 0xFFF⟩ value))
  (hstore : ∀ lane m, M m → N (m.store ⟨bus.port, lane, addr &&& 0xFFF⟩ value))
include hM hN hkeep hstore

theorem gives_writeEach (hport : ∀ lane, lane = 0 ∨ lane = 1 → phy.isLane (bus.laneOf lane)) :
    ∀ lanes : List UInt8, lanes ≠ [] → (∀ lane ∈ lanes, lane = 0 ∨ lane = 1) →
      ∀ {r₀ : Watched σ}, (phy.watched bus.port).sound r₀ → K (phy.memory r₀.world) →
        (r₀.missed = true ∨ M (phy.memory r₀.world)) →
          Gives (lanes.forM fun lane =>
              bus.writeByte (phy.watch bus.port) lane addr value committed).run r₀
            (upon (fun _ r => Seen phy bus.port K N r₀ r ∧
                ∀ lane ∈ lanes, ((phy.watched bus.port).lane r (bus.laneOf lane)).IsClear)
              fun r => Seen phy bus.port K M r₀ r)
  | [], hne, _, _, _, _, _ => absurd rfl hne
  | [lane], _, hlanes, r₀, hs, hk, hm => by
    have hlane := hlanes lane List.mem_cons_self
    have hone : Gives (bus.writeByte (phy.watch bus.port) lane addr value committed).run r₀ _ :=
      gives_writeByte_watched (hport lane hlane) hlane (hkeep lane) (hstore lane) hN hM hs hk hm
    refine gives_then hone fun _ r₁ hr₁ => ?_
    exact ⟨hr₁.1, List.forall_mem_singleton.mpr hr₁.2⟩
  | lane :: next :: rest, _, hlanes, r₀, hs, hk, hm => by
    obtain ⟨hlane, hlanes⟩ := List.forall_mem_cons.mp hlanes
    have hl := hport lane hlane
    have hone : Gives (bus.writeByte (phy.watch bus.port) lane addr value committed).run r₀ _ :=
      gives_writeByte_watched hl hlane (hkeep lane) (hstore lane) hN hM hs hk hm
    refine gives_then hone fun _ r₁ hr₁ => ?_
    obtain ⟨hr₁, hclear⟩ := hr₁
    have hothers := gives_writeEach hport (next :: rest) (List.cons_ne_nil _ _) hlanes hr₁.sound
      hr₁.memory (hr₁.told.imp_right (hN _))
    refine hothers.imp (fun _ r hr => ?_) fun r hr => hr₁.trans hr
    exact ⟨hr₁.trans hr.1, List.forall_mem_cons.mpr ⟨hr.1.clear _ hl hclear, hr.2⟩⟩

end

section
variable (hport : ∀ lane, lane = 0 ∨ lane = 1 → phy.isLane (bus.laneOf lane)) {lanes : LaneSet}
  (hlanes : lanes.IsProper)
include hport hlanes

omit hlanes in
theorem isLane_of_mem {lane : UInt8} (hlane : lane ∈ lanes.toList) : phy.isLane (bus.laneOf lane) :=
  hport lane (LaneSet.zero_or_one hlane)

theorem gives_writeLanes {addr : UInt16} {value : UInt8} {committed : Bool} {r₀ : Watched σ}
    (hM : ∀ m, M m → K m) (hN : ∀ m, N m → M m)
    (hkeep : ∀ lane m, K m → K (m.store ⟨bus.port, lane, addr &&& 0xFFF⟩ value))
    (hstore : ∀ lane m, M m → N (m.store ⟨bus.port, lane, addr &&& 0xFFF⟩ value))
    (hs : (phy.watched bus.port).sound r₀) (hk : K (phy.memory r₀.world))
    (hm : r₀.missed = true ∨ M (phy.memory r₀.world)) :
    Gives (bus.writeLanes (phy.watch bus.port) lanes addr value committed).run r₀
      (upon (fun _ r => Seen phy bus.port K N r₀ r ∧
          ((phy.watched bus.port).lane r (bus.laneOf lanes.highest)).IsClear)
        fun r => Seen phy bus.port K M r₀ r) := by
  have hhighest := LaneSet.highest_mem hlanes
  have heach : Gives (bus.writeLanes (phy.watch bus.port) lanes addr value committed).run r₀ _ :=
    gives_writeEach hM hN hkeep hstore hport lanes.toList (List.ne_nil_of_mem hhighest)
      (fun _ => LaneSet.zero_or_one) hs hk hm
  exact heach.imp (fun _ r hr => ⟨hr.1, hr.2 _ hhighest⟩) fun _ => id

theorem gives_aim {α : Type} {k : Fallible (Watched σ) α} {Q : α → Watched σ → Prop}
    {R : Watched σ → Prop} {highReg lowReg addr : UInt16} {committed : Bool} {r₀ : Watched σ}
    (pointer : SramWindow → UInt16) (hhigh : highReg &&& 0xFFF ≠ SramPort.writeDataLow)
    (hlow : lowReg &&& 0xFFF ≠ SramPort.writeDataLow)
    (hhighByte : ∀ s : SramWindow, ∀ v, pointer (s.write (highReg &&& 0xFFF) v) =
      MessageBus.ofBytes v (MessageBus.lowByte (pointer s)))
    (hlowByte : ∀ s : SramWindow, ∀ v, pointer (s.write (lowReg &&& 0xFFF) v) =
      MessageBus.ofBytes (MessageBus.highByte (pointer s)) v)
    {W : SramWord → UInt16} (hK : ∀ m, m.word = W → K m)
    (hkeep : ∀ m lane reg v, reg ≠ SramPort.writeDataLow → K m → K (m.store ⟨bus.port, lane, reg⟩ v))
    (hs : (phy.watched bus.port).sound r₀) (hk : K (phy.memory r₀.world))
    (hW : r₀.missed = true ∨ (phy.memory r₀.world).word = W)
    (hnext : ∀ r, Seen phy bus.port K (PhyMemory.Aimed pointer W bus.port addr) r₀ r →
      ((phy.watched bus.port).lane r (bus.laneOf lanes.highest)).IsClear → Gives k.run r (upon Q R))
    (hR : ∀ r, Seen phy bus.port K (fun m => m.word = W) r₀ r → R r) :
    Gives (do
        bus.writeLanes (phy.watch bus.port) lanes highReg (MessageBus.highByte addr) false
        bus.writeLanes (phy.watch bus.port) lanes lowReg (MessageBus.lowByte addr) committed
        k : Fallible (Watched σ) α).run r₀ (upon Q R) := by
  have hfirst : Gives (bus.writeLanes (phy.watch bus.port) lanes highReg (MessageBus.highByte addr)
      false).run r₀ _ :=
    gives_writeLanes hport hlanes hK (fun _ hm => hm.word) (fun lane m => hkeep m lane _ _ hhigh)
      (fun _ _ => PhyMemory.halfAimed_store hhigh hhighByte) hs hk hW
  refine gives_next hfirst hR fun _ r₁ hr₁ => ?_
  obtain ⟨hr₁, -⟩ := hr₁
  have hsecond : Gives (bus.writeLanes (phy.watch bus.port) lanes lowReg (MessageBus.lowByte addr)
      committed).run r₁ _ :=
    gives_writeLanes hport hlanes (fun m hm => hK m hm.word) (fun _ hm => hm.half)
      (fun lane m => hkeep m lane _ _ hlow) (fun _ _ hm => hm.store hlow hlowByte) hr₁.sound hr₁.memory
      hr₁.told
  refine gives_next hsecond (fun r hr => hR r ((hr₁.trans hr).mono fun _ hm => hm.word))
    fun _ r₂ hr₂ => ?_
  exact hnext r₂ (hr₁.trans hr₂.1) hr₂.2

/-! ## Reading and writing -/

theorem gives_readWord_watched {r₀ : Watched σ} (hs : (phy.watched bus.port).sound r₀)
    (addr : UInt16) :
    let W := (phy.memory r₀.world).word
    Gives (bus.readWord (phy.watch bus.port) lanes addr).run r₀
      (upon (fun w r => Passed (phy.watched bus.port) (fun m => m.word = W) r₀ r ∧
          (r.missed = true ∨ w = W ⟨bus.port, addr⟩))
        fun r => Passed (phy.watched bus.port) (fun m => m.word = W) r₀ r) := by
  intro W
  have hl : (phy.watched bus.port).isLane (bus.laneOf lanes.highest) :=
    isLane_of_mem hport (LaneSet.highest_mem hlanes)
  refine gives_aim hport hlanes SramWindow.readAddr (by decide) (by decide)
    (fun _ _ => rfl) (fun _ _ => rfl) (fun _ => id)
    (fun m lane _ v hreg => (m.word_store v _ _ hreg).trans) hs rfl (.inr rfl) (fun r₁ hr₁ hclear => ?_) fun _ hr => hr.toPassed
  -- what is known where the address has been written stays so, as nothing is written any more
  let M (m : PhyMemory) : Prop :=
    m.word = W ∧ (r₁.missed = true ∨ PhyMemory.Aimed SramWindow.readAddr W bus.port addr m)
  have hread (r : Watched σ) (hr : Passed (phy.watched bus.port) M r₁ r) (reg : UInt16) :
      Gives (bus.readByte (phy.watch bus.port) lanes.highest reg).run r
        (upon (fun value r' => (Passed (phy.watched bus.port) M r₁ r' ∧
              (r.missed = true → r'.missed = true)) ∧ value =
            ((phy.watched bus.port).memory r').answer ⟨bus.port, lanes.highest, reg &&& 0xFFF⟩)
          fun r' => Passed (phy.watched bus.port) (fun m => m.word = W) r₀ r') := by
    have hbyte : Gives (bus.readByte (phy.watch bus.port) lanes.highest reg).run r _ :=
      gives_readByte hl hr.sound hr.memory
    have honward :=
      gives_onward ((phy.parallel_watch bus.port).readByte bus lanes.highest reg) r
    refine (hbyte.both honward).imp (fun _ r' hr' => ?_)
      fun r' hr' => (hr₁.toPassed.trans (hr.trans hr'.1)).mono fun _ => And.left
    obtain ⟨⟨⟨hr', -⟩, hvalue⟩, honward⟩ := hr'
    exact ⟨⟨hr.trans hr', honward⟩, hvalue (hr.clear _ hl hclear)⟩
  refine gives_then (hread r₁ ⟨hr₁.sound, id, fun _ _ => id, hr₁.memory, hr₁.told⟩ _)
    fun high r₂ hr₂ => ?_
  obtain ⟨⟨hr₂, honward₂⟩, hhigh⟩ := hr₂
  refine gives_then (hread r₂ hr₂ _) fun low r₃ hr₃ => ?_
  obtain ⟨⟨hr₃, honward₃⟩, hlow⟩ := hr₃
  refine ⟨(hr₁.toPassed.trans hr₃).mono fun _ => And.left, ?_⟩
  by_cases hmissed : r₁.missed = true
  · exact .inl (honward₃ (honward₂ hmissed))
  · have haimed₂ := hr₂.memory.2.resolve_left hmissed
    have haimed₃ := hr₃.memory.2.resolve_left hmissed
    refine .inr ?_
    rw [hhigh, hlow, haimed₂.answer_high, haimed₃.answer_low, MessageBus.ofBytes_bytes]

theorem gives_writeWord_watched {r₀ : Watched σ} (hs : (phy.watched bus.port).sound r₀)
    {W : SramWord → UInt16} (hW : r₀.missed = true ∨ (phy.memory r₀.world).word = W)
    (addr value : UInt16) :
    let W' := Function.update W ⟨bus.port, addr⟩ value
    Gives (bus.writeWord (phy.watch bus.port) lanes addr value).run r₀
      (upon (fun _ r => Seen phy bus.port (fun _ => True) (fun m => m.word = W') r₀ r)
        fun r => Seen phy bus.port (fun _ => True) (fun m => m.word = W ∨ m.word = W') r₀ r) := by
  intro W'
  refine gives_aim hport hlanes SramWindow.writeAddr (by decide) (by decide) (fun _ _ => rfl)
    (fun _ _ => rfl) (fun _ _ => trivial) (fun _ _ _ _ _ => id) hs trivial hW (fun r₁ hr₁ _ => ?_)
    fun r hr => hr.mono fun _ => .inl
  have hhigh : Gives (bus.writeLanes (phy.watch bus.port) lanes SramPort.writeDataHigh
      (MessageBus.highByte value) false).run r₁ _ :=
    gives_writeLanes hport hlanes (fun _ _ => trivial) (fun _ hm => ⟨hm.word, hm.aim⟩)
      (fun _ _ => id) (fun _ _ hm => hm.store) hr₁.sound trivial hr₁.told
  refine gives_next hhigh (fun r hr => (hr₁.trans hr).mono fun _ hm => .inl hm.word) fun _ r₂ hr₂ => ?_
  replace hr₂ := hr₁.trans hr₂.1
  have hlast : Gives (bus.writeLanes (phy.watch bus.port) lanes SramPort.writeDataLow
      (MessageBus.lowByte value) true).run r₂ _ :=
    gives_writeLanes hport hlanes (fun _ _ => trivial) (fun _ hm => ⟨.inr hm.word, hm.aim, hm.high⟩)
      (fun _ _ => id) (fun _ _ hm => PhyMemory.Loaded.store hm) hr₂.sound trivial
      (hr₂.told.imp_right fun hm => ⟨.inl hm.word, hm.aim, hm.high⟩)
  exact hlast.imp (fun _ r hr => (hr₂.trans hr.1).mono fun _ hm => hm.word)
    fun r hr => (hr₂.trans hr).mono fun _ hm => hm.word

theorem gives_readWord {s₀ : σ} (hs : phy.sound s₀) (addr : UInt16) :
    let W := (phy.memory s₀).word
    Gives (bus.readWord h lanes addr).run s₀
      (upon (fun w s => Passed phy (fun m => m.word = W) s₀ s ∧
          (phy.prompt s₀ → w = W ⟨bus.port, addr⟩))
        fun s => Passed phy (fun m => m.word = W) s₀ s) := by
  intro W
  have hstart : (phy.watched bus.port).sound (.start s₀) := hs
  have hword := gives_readWord_watched hport hlanes hstart addr
  refine Gives.carried (r := Watched.start s₀)
    (((phy.parallel_watch bus.port).readWord bus lanes addr).1 _)
    (hword.imp (fun w r hr => ?_) fun r hr => ?_)
  · refine ⟨hr.1.unwatched hport, fun hp => hr.2.resolve_left ?_⟩
    rw [hr.1.noticed hport hp]
    exact Bool.false_ne_true
  · exact hr.unwatched hport

theorem gives_writeWord {s₀ : σ} (hs : phy.sound s₀) (hp : phy.prompt s₀) (addr value : UInt16) :
    let W := (phy.memory s₀).word
    let W' := Function.update W ⟨bus.port, addr⟩ value
    Gives (bus.writeWord h lanes addr value).run s₀
      (upon (fun _ s => Passed phy (fun m => m.word = W') s₀ s)
        fun s => Passed phy (fun m => m.word = W ∨ m.word = W') s₀ s) := by
  intro W W'
  have hstart : (phy.watched bus.port).sound (.start s₀) := hs
  have hword := gives_writeWord_watched hport hlanes hstart (.inr rfl) addr value
  exact Gives.carried (r := Watched.start s₀)
    (((phy.parallel_watch bus.port).writeWord bus lanes addr value).1 _)
    (hword.imp (fun _ r hr => hr.onTime hport hp) fun r hr => hr.onTime hport hp)

end

end MemoryPhy

/-- Reading a word changes none. On any PHY, whatever becomes of its transactions, if no
refusal goes unnoticed: writing a word changes no other; one that succeeds has stored the
word, and a read from there that succeeds then answers with it, from whichever lanes; one
that fails leaves the old word or the new one. -/
theorem words_round_trip {σ : Type} {h : Host σ} (phy : MemoryPhy h) (bus : MessageBus)
    (hport : ∀ lane, lane = 0 ∨ lane = 1 → phy.isLane (bus.laneOf lane)) (s : σ)
    (hs : phy.sound s) :
    (∀ (lanes : LaneSet) (addr : UInt16), lanes.IsProper →
      (phy.memory ((bus.readWord h lanes addr).run s).2).word = (phy.memory s).word) ∧
    ∀ (lanes : LaneSet) (addr value : UInt16), lanes.IsProper →
      ¬ phy.Unnoticed bus.port (bus.writeWord · lanes addr value) s →
      let was := (phy.memory s).word
      let ended := (bus.writeWord h lanes addr value).run s
      let left := (phy.memory ended.2).word
      (∀ w, w ≠ ⟨bus.port, addr⟩ → left w = was w) ∧
        (ended.1 = .ok () → left ⟨bus.port, addr⟩ = value ∧
          ∀ lanes' : LaneSet, lanes'.IsProper →
            ¬ phy.Unnoticed bus.port (bus.readWord · lanes' addr) ended.2 →
              ∀ w, ((bus.readWord h lanes' addr).run ended.2).1 = .ok w → w = value) ∧
        (∀ e, ended.1 = .error e →
          left ⟨bus.port, addr⟩ = was ⟨bus.port, addr⟩ ∨ left ⟨bus.port, addr⟩ = value) := by
  constructor
  · intro lanes addr hlanes
    have hgives := MemoryPhy.gives_readWord hport hlanes hs addr
    exact hgives.either (fun _ _ hs => hs.1.memory) fun _ hs => hs.memory
  · intro lanes addr value hlanes hnoticed was ended left
    let W := Function.update was ⟨bus.port, addr⟩ value
    have hgives : Gives (bus.writeWord h lanes addr value).run s
        (upon (fun _ s => phy.sound s ∧ (phy.memory s).word = W)
          fun s => (phy.memory s).word = was ∨ (phy.memory s).word = W) := by
      refine MemoryPhy.gives_noticed (x := (bus.writeWord · lanes addr value))
        ((phy.parallel_watch bus.port).writeWord bus lanes addr value).1 hnoticed ?_
      have hstart : (phy.watched bus.port).sound (.start s) := hs
      have hword := MemoryPhy.gives_writeWord_watched hport hlanes hstart (.inr rfl) addr value
      exact hword.imp (fun _ r hr => hr.told.imp_right fun hm => ⟨hr.sound, hm⟩) fun r hr => hr.told
    have hleft : left = was ∨ left = W := hgives.either (fun _ _ hs => .inr hs.2) fun _ => id
    refine ⟨fun w hw => ?_, fun hok => ?_, fun e _ => ?_⟩
    · rcases hleft with hleft | hleft <;> rw [hleft]
      exact Function.update_of_ne hw _ _
    · obtain ⟨hsound, hended⟩ := hgives.ok hok
      have hword : left ⟨bus.port, addr⟩ = value := by
        rw [show left = W from hended]
        exact Function.update_self _ _ _
      refine ⟨hword, fun lanes' hlanes' hnoticed' w hread => ?_⟩
      have hread' : Gives (bus.readWord h lanes' addr).run ended.2
          (upon (fun w _ => w = left ⟨bus.port, addr⟩) fun _ => True) := by
        refine MemoryPhy.gives_noticed (x := (bus.readWord · lanes' addr))
          ((phy.parallel_watch bus.port).readWord bus lanes' addr).1 hnoticed' ?_
        have hstart : (phy.watched bus.port).sound (.start ended.2) := hsound
        have hanswer := MemoryPhy.gives_readWord_watched hport hlanes' hstart addr
        exact hanswer.imp (fun _ r hr => hr.2) fun _ _ => .inr trivial
      exact (hread'.ok hread).trans hword
    · refine hleft.imp (fun hleft => by rw [hleft]) fun hleft => ?_
      rw [hleft]
      exact Function.update_self _ _ _

theorem words_round_trip_retried :
    let phy := Played.memoryPhy 1 (by decide)
    let bus : MessageBus := ⟨0, ⟨4, 4⟩⟩
    let start := Played.untouched 1 .empty 0
      [.refuse 0x8000, .hang, .ok, .ok, .ok, .swap, .delay 3, .refuse 0x8000]
    phy.sound start ∧ ¬ phy.Unnoticed bus.port (bus.writeWord · .lane0 0x1234 0xBEEF) start ∧
      ((bus.writeWord Played.host .lane0 0x1234 0xBEEF).run start).1 = .ok () ∧
        (phy.memory ((bus.writeWord Played.host .lane0 0x1234 0xBEEF).run start).2).word
          ⟨bus.port, 0x1234⟩ = 0xBEEF ∧
            ¬ phy.Unnoticed bus.port (bus.readWord · .both 0x1234)
              ((bus.writeWord Played.host .lane0 0x1234 0xBEEF).run start).2 ∧
                ∀ w, ((bus.readWord Played.host .both 0x1234).run
                  ((bus.writeWord Played.host .lane0 0x1234 0xBEEF).run start).2).1 = .ok w →
                    w = 0xBEEF := by
  intro phy bus start
  have hs : phy.sound start := Played.settles_untouched 1 .empty (by simp [BusWord.errorSet])
  have hnoticed : ¬ phy.Unnoticed bus.port (bus.writeWord · .lane0 0x1234 0xBEEF) start := by
    decide +kernel
  have hnoticed' : ¬ phy.Unnoticed bus.port (bus.readWord · .both 0x1234)
      ((bus.writeWord Played.host .lane0 0x1234 0xBEEF).run start).2 := by
    decide +kernel
  have hok : ((bus.writeWord Played.host .lane0 0x1234 0xBEEF).run start).1 = .ok () := by
    decide +kernel
  obtain ⟨-, hwrites⟩ := words_round_trip phy bus (fun lane hlane => ⟨Nat.one_pos, hlane⟩) start hs
  obtain ⟨-, hstored, -⟩ := hwrites .lane0 0x1234 0xBEEF (by decide) hnoticed
  obtain ⟨hword, hread⟩ := hstored hok
  exact ⟨hs, hnoticed, hok, hword, hnoticed', hread .both (by decide) hnoticed'⟩

/-- The first byte shows late, and behind it the refusal of the second does not show at
all. So the word is stored where only half of the address has been written. -/
theorem word_stored_elsewhere :
    let phy := Played.memoryPhy 1 (by decide)
    let bus := MessageBus.ofPort 0
    let start := Played.untouched 1 .empty 0 [.delay 5, .refuse 0x8000]
    phy.sound start ∧ ((bus.writeWord Played.host .lane0 0x1234 0xBEEF).run start).1 = .ok () ∧
      (phy.memory ((bus.writeWord Played.host .lane0 0x1234 0xBEEF).run start).2).word
        ⟨0, 0x1234⟩ ≠ 0xBEEF ∧
          (phy.memory ((bus.writeWord Played.host .lane0 0x1234 0xBEEF).run start).2).word
            ⟨0, 0x1200⟩ ≠ (phy.memory start).word ⟨0, 0x1200⟩ := by
  intro phy bus start
  have hs : phy.sound start := Played.settles_untouched 1 .empty (by simp [BusWord.errorSet])
  exact ⟨hs, by decide +kernel, by decide +kernel, by decide +kernel⟩

end Retune
