import Retune.Proofs.C20Words

/-!
# The dividers a PLL runs on

What a C10 or C20 PLL runs on is two values in its PHY: the bytes of a quotient, or the
words of a quotient and a remainder. On a PHY whose errors show at once a capture finds
these values, and programming that succeeds replaces them; if it fails, each of them has
been replaced or not.
-/

namespace Retune

variable {σ : Type} {h : Host σ}

namespace MemoryPhy
variable {phy : MemoryPhy h} {bus : MessageBus} {M : PhyMemory → Prop} {s s' : σ}

/-- Nothing of earlier calls is in the way of the next one. -/
structure Ready (phy : MemoryPhy h) (bus : MessageBus) (s : σ) : Prop where
  sound : phy.sound s
  prompt : phy.prompt s
  clear : ∀ lane, lane = 0 ∨ lane = 1 → (phy.lane s (bus.laneOf lane)).IsClear

theorem Ready.same (hs : phy.Ready bus s) (hsame : phy.Same s s') : phy.Ready bus s' := by
  refine ⟨hsame.sound, hsame.prompt hs.prompt, ?_⟩
  rw [hsame.lane]
  exact hs.clear

section
variable (hport : ∀ lane, lane = 0 ∨ lane = 1 → phy.isLane (bus.laneOf lane))
include hport

theorem Ready.passed (hs : phy.Ready bus s) (hpassed : Passed phy M s s') : phy.Ready bus s' where
  sound := hpassed.sound
  prompt := hpassed.prompt hs.prompt
  clear lane hlane := hpassed.clear _ (hport lane hlane) (hs.clear lane hlane)

def reader {s₀ : σ} (hprompt : phy.prompt s₀) : Reader h bus where
  ready s := Passed phy (· = phy.memory s₀) s₀ s ∧ (phy.lane s (bus.laneOf 0)).IsClear
  good := Passed phy (fun m => m.word = (phy.memory s₀).word) s₀
  missed := Passed phy (· = phy.memory s₀) s₀
  lost := Passed phy (fun m => m.word = (phy.memory s₀).word) s₀
  byte addr value := value = (phy.memory s₀).answer ⟨bus.port, 0, addr &&& 0xFFF⟩
  word addr value := value = (phy.memory s₀).word ⟨bus.port, addr⟩
  lost_of_missed hs := hs.mono fun _ hm => congrArg PhyMemory.word hm
  readByte {s} addr hs := by
    obtain ⟨hs, hclear⟩ := hs
    refine (gives_readFrom (hport 0 (.inl rfl)) hs addr).imp (fun value s' hs' => ?_) fun _ => id
    obtain ⟨⟨hs', hclear'⟩, hvalue⟩ := hs'
    exact ⟨⟨⟨hs', hclear'⟩, hs'.mono fun _ hm => congrArg _ hm⟩, hvalue hclear⟩
  readWord {s} addr hs := by
    have hmemory : (phy.memory s).word = (phy.memory s₀).word := hs.memory
    have hlane0 : LaneSet.lane0.IsProper := by decide
    refine (gives_readWord hport hlane0 hs.sound addr).imp (fun value s' hs' => ?_) fun s' hs' => ?_
    · obtain ⟨hs', hvalue⟩ := hs'
      rw [hmemory] at hs' hvalue
      exact ⟨hs.trans hs', hvalue (hs.prompt hprompt)⟩
    · rw [hmemory] at hs'
      exact hs.trans hs'
  reportReady {s} n hs := by
    have hnotice := phy.report n hs.1.sound
    refine ⟨hs.1.same hnotice, ?_⟩
    rw [hnotice.lane]
    exact hs.2
  reportGood {s} n hs := hs.same (phy.report n hs.sound)

/-! ## Bits of bytes -/

theorem gives_modifyLane {lane : UInt8} (hlane : lane = 0 ∨ lane = 1) {addr : UInt16}
    {clear set : UInt8} (hM : ∀ m v, M m → M (m.store ⟨bus.port, lane, addr &&& 0xFFF⟩ v))
    (hs : phy.sound s) (hm : M (phy.memory s)) :
    Gives (bus.modifyLane h addr clear set true lane).run s
      (upon (fun _ s' => Passed phy M s s' ∧ (phy.lane s' (bus.laneOf lane)).IsClear)
        fun s' => Passed phy M s s') := by
  have hl := hport lane hlane
  refine gives_then (gives_readByte hl hs hm) fun old s₁ hread => ?_
  obtain ⟨⟨hs₁, hclear⟩, -⟩ := hread
  have hwrite (value : UInt8) : Gives (bus.writeByte h lane addr value true).run s₁ _ :=
    gives_writeByte hl (fun m => hM m value) (fun _ => id) (.inl rfl) hs₁.sound hs₁.memory
  dsimp only
  split
  · exact (hwrite _).imp (fun _ s₂ hs₂ => ⟨hs₁.trans hs₂.1, hs₂.2⟩) fun s₂ hs₂ => hs₁.trans hs₂
  · exact ⟨hs₁, hclear⟩

theorem gives_modifyLanes {addr : UInt16} {clear set : UInt8} {lanes : LaneSet}
    (hM : ∀ lane, lane = 0 ∨ lane = 1 → ∀ m v, M m → M (m.store ⟨bus.port, lane, addr &&& 0xFFF⟩ v))
    (hs : phy.sound s) (hm : M (phy.memory s)) :
    Gives (bus.modifyLanes h lanes addr clear set true).run s
      (upon (fun _ s' => Passed phy M s s' ∧
          ∀ lane ∈ lanes.toList, (phy.lane s' (bus.laneOf lane)).IsClear)
        fun s' => Passed phy M s s') := by
  have heach : ∀ (l : List UInt8), (∀ lane ∈ l, lane = 0 ∨ lane = 1) → ∀ {s : σ},
      phy.sound s → M (phy.memory s) →
        Gives (l.forM (bus.modifyLane h addr clear set true)).run s
          (upon (fun _ s' => Passed phy M s s' ∧
              ∀ lane ∈ l, (phy.lane s' (bus.laneOf lane)).IsClear)
            fun s' => Passed phy M s s') := by
    intro l
    induction l with
    | nil => exact fun _ s hs hm => ⟨⟨hs, id, fun _ _ => id, hm⟩, nofun⟩
    | cons lane l ih =>
      intro hl s hs hm
      obtain ⟨hlane, hl⟩ := List.forall_mem_cons.mp hl
      refine gives_then (gives_modifyLane hport hlane (hM lane hlane) hs hm) fun _ s₁ hs₁ => ?_
      obtain ⟨hs₁, hclear⟩ := hs₁
      have hrest := ih hl hs₁.sound hs₁.memory
      refine hrest.imp (fun _ s₂ hs₂ => ⟨hs₁.trans hs₂.1, ?_⟩) fun s₂ hs₂ => hs₁.trans hs₂
      exact List.forall_mem_cons.mpr ⟨hs₂.1.clear _ (hport lane hlane) hclear, hs₂.2⟩
  exact heach lanes.toList (fun _ => LaneSet.zero_or_one) hs hm

end

end MemoryPhy

/-! ## Two values -/

def IsMixOf (a b x : UInt16 × UInt16) : Prop :=
  (x.1 = a.1 ∨ x.1 = b.1) ∧ (x.2 = a.2 ∨ x.2 = b.2)

namespace C10Pll

def lowByte (p : C10Pll) : PhyByte := ⟨p.bus.port, 0, 0xC0B⟩

def highByte (p : C10Pll) : PhyByte := ⟨p.bus.port, 0, 0xC0C⟩

/-- The slots of the quotient are those of its bytes. -/
structure Placed (p : C10Pll) : Prop where
  low : (p.bytes.get quotLow).addr = 0xC0B
  high : (p.bytes.get quotHigh).addr = 0xC0C

def live (p : C10Pll) (m : PhyMemory) : UInt16 × UInt16 :=
  ((m.byte p.lowByte).toUInt16, (m.byte p.highByte).toUInt16)

def wanted (p : C10Pll) (v : Version) : UInt16 × UInt16 :=
  (((p.bytes.get quotLow).value v).toUInt16, ((p.bytes.get quotHigh).value v).toUInt16)

theorem live_store (p : C10Pll) {lane : UInt8} {addr : UInt16} (haddr : addr ≠ 0xC0B ∧ addr ≠ 0xC0C)
    (m : PhyMemory) (value : UInt8) : p.live (m.store ⟨p.bus.port, lane, addr⟩ value) = p.live m := by
  have hlow : p.lowByte ≠ ⟨p.bus.port, lane, addr⟩ := fun heq => haddr.1 (congrArg PhyByte.addr heq).symm
  have hhigh : p.highByte ≠ ⟨p.bus.port, lane, addr⟩ := fun heq => haddr.2 (congrArg PhyByte.addr heq).symm
  unfold live PhyMemory.store
  dsimp only
  rw [Function.update_of_ne hlow, Function.update_of_ne hhigh]

theorem live_store_low (p : C10Pll) (m : PhyMemory) (value : UInt8) :
    p.live (m.store p.lowByte value) = (value.toUInt16, (p.live m).2) := by
  have hhigh : p.highByte ≠ p.lowByte := by
    unfold highByte lowByte
    simp
  unfold live PhyMemory.store
  dsimp only
  rw [Function.update_self, Function.update_of_ne hhigh]

theorem live_store_high (p : C10Pll) (m : PhyMemory) (value : UInt8) :
    p.live (m.store p.highByte value) = ((p.live m).1, value.toUInt16) := by
  have hlow : p.lowByte ≠ p.highByte := by
    unfold highByte lowByte
    simp
  unfold live PhyMemory.store
  dsimp only
  rw [Function.update_self, Function.update_of_ne hlow]

theorem SameFile.placed {bus : MessageBus} {p q : C10Pll} (h : SameFile bus p q) (hp : p.Placed) :
    q.Placed :=
  ⟨(h.addr quotLow).trans hp.low, (h.addr quotHigh).trans hp.high⟩

theorem found_live {bus : MessageBus} {p q : C10Pll} (h : SameFile bus p q) (hp : p.Placed)
    {m : PhyMemory} (hread : ∀ i : Fin 20, (q.bytes.get i).ReadFrom
      (fun addr value => value = m.answer ⟨bus.port, 0, addr &&& 0xFFF⟩) (p.bytes.get i).addr) :
    q.wanted .found = q.live m := by
  obtain rfl := h.bus
  obtain ⟨low, hlow, hslotLow⟩ := hread quotLow
  obtain ⟨high, hhigh, hslotHigh⟩ := hread quotHigh
  rw [hp.low] at hlow
  rw [hp.high] at hhigh
  unfold wanted
  rw [hslotLow, hslotHigh, hlow, hhigh]
  rfl

section
variable {phy : MemoryPhy h} {p : C10Pll}
  (hport : ∀ lane, lane = 0 ∨ lane = 1 → phy.isLane (p.bus.laneOf lane)) {s s' : σ}
  {x y : UInt16 × UInt16}
include hport

theorem gives_modifyLanes (lanes : LaneSet) {addr : UInt16}
    (clear set : UInt8) (haddr : addr &&& 0xFFF ≠ 0xC0B ∧ addr &&& 0xFFF ≠ 0xC0C)
    (hs' : phy.Passed (fun m => p.live m = x) s s') :
    Gives (p.bus.modifyLanes h lanes addr clear set true).run s'
      (upon (fun _ s'' => phy.Passed (fun m => p.live m = x) s s'')
        fun s'' => phy.Passed (fun m => p.live m = x) s s'') := by
  have hkeep : Gives (p.bus.modifyLanes h lanes addr clear set true).run s' _ :=
    MemoryPhy.gives_modifyLanes hport (fun _ _ m value hm => (p.live_store haddr m value).trans hm)
      hs'.sound hs'.memory
  exact hkeep.imp (fun _ _ h => hs'.trans h.1) fun _ h => hs'.trans h

theorem gives_writeByte {addr : UInt16} {value : UInt8}
    (hstore : ∀ m, p.live m = x ∨ p.live m = y →
      p.live (m.store ⟨p.bus.port, 0, addr &&& 0xFFF⟩ value) = y)
    (hs' : phy.Passed (fun m => p.live m = x) s s') :
    Gives (p.bus.writeByte h 0 addr value true).run s'
      (upon (fun _ s'' => phy.Passed (fun m => p.live m = y) s s'')
        fun s'' => phy.Passed (fun m => p.live m = x ∨ p.live m = y) s s'') := by
  have hwrite : Gives (p.bus.writeByte h 0 addr value true).run s' _ :=
    MemoryPhy.gives_writeByte (M := fun m => p.live m = x ∨ p.live m = y)
      (N := fun m => p.live m = y) (hport 0 (.inl rfl)) hstore (fun _ => .inr) (.inl rfl) hs'.sound
      (.inl hs'.memory)
  exact hwrite.imp (fun _ _ h => hs'.trans h.1) fun _ h => hs'.trans h

end

theorem gives_program (phy : MemoryPhy h) {p : C10Pll}
    (hport : ∀ lane, lane = 0 ∨ lane = 1 → phy.isLane (p.bus.laneOf lane)) (hp : p.Placed) {s : σ}
    (hs : phy.sound s) (v : Version) :
    let was := p.live (phy.memory s)
    Gives (p.program h v).run s
      (upon (fun _ s' => phy.Passed (fun m => p.live m = p.wanted v) s s')
        fun s' => phy.Passed (fun m => IsMixOf was (p.wanted v) (p.live m)) s s') := by
  intro was
  -- between the two bytes the PLL runs on a quotient of neither version
  let half : UInt16 × UInt16 := ((p.wanted v).1, was.2)
  have hwas : IsMixOf was (p.wanted v) was := ⟨.inl rfl, .inl rfl⟩
  have hhalf : IsMixOf was (p.wanted v) half := ⟨.inr rfl, .inl rfl⟩
  have hwanted : IsMixOf was (p.wanted v) (p.wanted v) := ⟨.inr rfl, .inr rfl⟩
  have hmixed {s' : σ} {x y : UInt16 × UInt16} (hx : IsMixOf was (p.wanted v) x)
      (hy : IsMixOf was (p.wanted v) y) (hs' : phy.Passed (fun m => p.live m = x ∨ p.live m = y) s s') :
      phy.Passed (fun m => IsMixOf was (p.wanted v) (p.live m)) s s' := by
    refine hs'.mono fun m hm => ?_
    rcases hm with hm | hm <;> rw [hm]
    · exact hx
    · exact hy
  have hfailed {s' : σ} {x : UInt16 × UInt16} (hx : IsMixOf was (p.wanted v) x)
      (hs' : phy.Passed (fun m => p.live m = x) s s') := hmixed hx hx (hs'.mono fun _ => .inl)
  have hstart : phy.Passed (fun m => p.live m = was) s s := ⟨hs, id, fun _ _ => id, rfl⟩
  have hlow (m : PhyMemory) (hm : p.live m = was ∨ p.live m = half) :
      p.live (m.store ⟨p.bus.port, 0, 0xC0B &&& 0xFFF⟩ (p.bytes[quotLow].value v)) = half := by
    refine (p.live_store_low m _).trans ?_
    rcases hm with hm | hm <;> rw [hm] <;> rfl
  have hhigh (m : PhyMemory) (hm : p.live m = half ∨ p.live m = p.wanted v) :
      p.live (m.store ⟨p.bus.port, 0, 0xC0C &&& 0xFFF⟩ (p.bytes[quotHigh].value v)) =
        p.wanted v := by
    refine (p.live_store_high m _).trans ?_
    rcases hm with hm | hm <;> rw [hm] <;> rfl
  unfold program
  rw [show p.bytes[quotLow].addr = 0xC0B from hp.low,
    show p.bytes[quotHigh].addr = 0xC0C from hp.high]
  refine gives_next (gives_modifyLanes hport _ _ _ (by decide) hstart) (fun _ => hfailed hwas)
    fun _ s₁ hs₁ => ?_
  refine gives_next (gives_modifyLanes hport _ _ _ (by decide) hs₁) (fun _ => hfailed hwas)
    fun _ s₂ hs₂ => ?_
  refine gives_next (gives_modifyLanes hport _ _ _ (by decide) hs₂) (fun _ => hfailed hwas)
    fun _ s₃ hs₃ => ?_
  refine gives_next (gives_writeByte hport hlow hs₃) (fun _ => hmixed hwas hhalf) fun _ s₄ hs₄ => ?_
  refine gives_next (gives_writeByte hport hhigh hs₄) (fun _ => hmixed hhalf hwanted)
    fun _ s₅ hs₅ => ?_
  exact (gives_modifyLanes hport _ _ _ (by decide) hs₅).imp (fun _ _ => id)
    fun _ => hfailed hwanted

end C10Pll

namespace C20Pll

def live (p : C20Pll) (m : PhyMemory) : UInt16 × UInt16 :=
  (m.word p.quotientWord, m.word p.remainderWord)

def wanted (p : C20Pll) (v : Version) : UInt16 × UInt16 := (p.quotient.value v, p.remainder.value v)

theorem passed_program (phy : MemoryPhy h) {p : C20Pll}
    (hport : ∀ lane, lane = 0 ∨ lane = 1 → phy.isLane (p.bus.laneOf lane)) {s : σ}
    (hs : phy.Ready p.bus s) (v : Version) :
    Gives (p.program h v).run s
      (upon (fun _ s' => phy.Passed (fun _ => True) s s') fun s' => phy.Passed (fun _ => True) s s') := by
  have hwrite {s' : σ} (addr value : UInt16) (hs' : phy.Passed (fun _ => True) s s') :
      Gives (p.bus.writeWord h .lane0 addr value).run s'
        (upon (fun _ s'' => phy.Passed (fun _ => True) s s'')
          fun s'' => phy.Passed (fun _ => True) s s'') := by
    have hlane0 : LaneSet.lane0.IsProper := by decide
    have hstored := MemoryPhy.gives_writeWord hport hlane0 hs'.sound (hs'.prompt hs.prompt) addr value
    exact hstored.imp (fun _ _ h => hs'.trans (h.mono fun _ _ => trivial))
      fun _ h => hs'.trans (h.mono fun _ _ => trivial)
  refine gives_then (hwrite _ _ ⟨hs.sound, id, fun _ _ => id, trivial⟩) fun _ s₁ hs₁ => ?_
  exact gives_then (hwrite _ _ hs₁) fun _ s₂ hs₂ => hwrite _ _ hs₂

end C20Pll

namespace Pll

/-- A C10 or C20 PLL behind `bus`. The slots of a C10 quotient have their place from the
start. -/
def IsBehind (bus : MessageBus) : Pll → Prop
  | c10 p => p.bus = bus ∧ p.Placed
  | c20 p => p.bus = bus
  | combo _ | dkl _ | dpMn _ => False

/-- The slots of the dividers are those of what the PLL runs on. -/
def IsPlaced : Pll → Prop
  | c10 p => p.Placed
  | c20 p => p.Running
  | combo _ | dkl _ | dpMn _ => False

def live : Pll → PhyMemory → UInt16 × UInt16
  | c10 p => p.live
  | c20 p => p.live
  | combo _ | dkl _ | dpMn _ => fun _ => (0, 0)

def wanted : Pll → Version → UInt16 × UInt16
  | c10 p => p.wanted
  | c20 p => p.wanted
  | combo _ | dkl _ | dpMn _ => fun _ => (0, 0)

/-- What was found is what the PLL ran on. -/
def FoundLive (p : Pll) (m : PhyMemory) : Prop := p.IsPlaced ∧ p.wanted .found = p.live m

def Untouched (p : Pll) (m m' : PhyMemory) : Prop :=
  match p with
  | c10 _ => m'.byte = m.byte
  | c20 _ => m'.word = m.word
  | combo _ | dkl _ | dpMn _ => False

theorem live_of_untouched {p q : Pll} (hfamily : q.family = p.family) {m m' : PhyMemory}
    (h : p.Untouched m m') : q.live m' = q.live m := by
  cases p with
  | combo p | dkl p | dpMn p => exact h.elim
  | c10 p =>
    cases q with
    | c10 q =>
      show C10Pll.live q m' = C10Pll.live q m
      unfold C10Pll.live
      rw [show m'.byte = m.byte from h]
    | combo | dkl | c20 | dpMn => nomatch hfamily
  | c20 p =>
    cases q with
    | c20 q =>
      show C20Pll.live q m' = C20Pll.live q m
      unfold C20Pll.live
      rw [show m'.word = m.word from h]
    | combo | dkl | c10 | dpMn => nomatch hfamily

/-! ## Retuning -/

theorem family_asFound (p : Pll) : p.asFound.family = p.family := by cases p <;> rfl

theorem placed_asFound (p : C10Pll) :
    C10Pll.Placed { p with bytes := p.bytes.map Slot.asFound } ↔ p.Placed := by
  have haddr (i : Fin 20) : ((p.bytes.map Slot.asFound).get i).addr = (p.bytes.get i).addr := by
    rw [get_map_asFound]
    rfl
  constructor
  · exact fun hp => ⟨(haddr _).symm.trans hp.low, (haddr _).symm.trans hp.high⟩
  · exact fun hp => ⟨(haddr _).trans hp.low, (haddr _).trans hp.high⟩

theorem running_asFound (p : C20Pll) :
    C20Pll.Running { p with
      tx := p.tx.map Slot.asFound
      cmn := p.cmn.map Slot.asFound
      mpll := p.mpll.map Slot.asFound } ↔ p.Running := by
  have haddr (i : Fin 10) : ((p.mpll.map Slot.asFound).get i).addr = (p.mpll.get i).addr := by
    rw [get_map_asFound]
    rfl
  constructor
  · exact fun hp => ⟨(haddr 8).symm.trans hp.quotient, (haddr 9).symm.trans hp.remainder⟩
  · exact fun hp => ⟨(haddr 8).trans hp.quotient, (haddr 9).trans hp.remainder⟩

theorem isBehind_asFound (bus : MessageBus) (p : Pll) :
    p.asFound.IsBehind bus ↔ p.IsBehind bus := by
  cases p with
  | combo | dkl | dpMn | c20 => exact Iff.rfl
  | c10 p => exact and_congr_right fun _ => placed_asFound p

theorem foundLive_asFound (p : Pll) (m : PhyMemory) : p.asFound.FoundLive m ↔ p.FoundLive m := by
  cases p with
  | combo | dkl | dpMn => exact Iff.rfl
  | c10 p =>
    refine and_congr (placed_asFound p) (Eq.congr_left ?_)
    simp only [asFound, wanted, C10Pll.wanted, get_map_asFound, Slot.asFound, Slot.value]
  | c20 p =>
    refine and_congr (running_asFound p) (Eq.congr_left ?_)
    simp [asFound, wanted, C20Pll.wanted, C20Pll.quotient, C20Pll.remainder, Slot.asFound, Slot.value]

theorem asFound_retuned {p q : Pll} {target : Float} {s s' : σ}
    (hrun : (p.retune h target).run s = (.ok q, s')) : q.asFound = p.asFound := by
  by_cases haccepts : Scalar.isFrequency target = true ∧ p.HasRatio
  · obtain ⟨q', hq', hproposes⟩ := p.retune_frequency h haccepts.1 haccepts.2 s
    rw [hrun] at hq'
    cases hq'
    exact hproposes.asFound
  · obtain ⟨e, he⟩ := p.retune_turned_down h haccepts s
    rw [hrun] at he
    cases he

/-! ## Programming and capturing -/

section
variable {phy : MemoryPhy h} {bus : MessageBus}
  (hport : ∀ lane, lane = 0 ∨ lane = 1 → phy.isLane (bus.laneOf lane)) {s : σ}
include hport

theorem gives_program {p : Pll} (hp : p.IsBehind bus) (hs : phy.Ready bus s) (v : Version) :
    let was := p.live (phy.memory s)
    Gives (p.program h v).run s
      (upon (fun _ s' => phy.Passed (fun m => p.IsPlaced → p.live m = p.wanted v) s s')
        fun s' => phy.Passed (fun m => p.IsPlaced → IsMixOf was (p.wanted v) (p.live m)) s s') := by
  intro was
  cases p with
  | combo | dkl | dpMn => exact hp.elim
  | c10 p =>
    obtain ⟨rfl, hplaced⟩ := hp
    exact (C10Pll.gives_program phy hport hplaced hs.sound v).imp
      (fun _ _ hs' => hs'.mono fun _ hm _ => hm) fun _ hs' => hs'.mono fun _ hm _ => hm
  | c20 p =>
    obtain rfl : p.bus = bus := hp
    by_cases hplaced : p.Running
    · have hgives := C20Pll.gives_program phy hport hplaced hs.sound hs.prompt v
      have hinUse := p.inUse_programmed v (phy.memory s).word
      refine hgives.imp (fun _ _ hs' => hs'.mono fun m hm _ => ?_) fun _ hs' =>
        hs'.mono fun m hm _ => ⟨?_, ?_⟩
      · show (m.word p.quotientWord, m.word p.remainderWord) = _
        rw [show m.word = _ from hm, hinUse.quotient, hinUse.remainder]
        rfl
      · exact (hm p.quotientWord).imp_right fun hword => hword.trans hinUse.quotient
      · exact (hm p.remainderWord).imp_right fun hword => hword.trans hinUse.remainder
    -- before its first capture a C20 PLL has its slots elsewhere
    · exact (C20Pll.passed_program phy hport hs v).imp
        (fun _ _ hs' => hs'.mono fun _ _ hplaced' => absurd hplaced' hplaced)
        fun _ hs' => hs'.mono fun _ _ hplaced' => absurd hplaced' hplaced

theorem capture_live {p q : Pll} (hp : p.IsBehind bus) (hs : phy.Ready bus s)
    {r : Except Failure Unit} {s' : σ} (hrun : Pll.capture h p s = ((r, q), s')) :
    q.IsBehind bus ∧ q.family = p.family ∧
      phy.Passed (fun m => p.Untouched (phy.memory s) m) s s' ∧
        (r = .ok () → q.FoundLive (phy.memory s)) := by
  let reader : Reader h bus := MemoryPhy.reader hport hs.prompt
  have hready : reader.ready s := ⟨⟨hs.sound, id, fun _ _ => id, rfl⟩, hs.clear 0 (.inl rfl)⟩
  cases p with
  | combo | dkl | dpMn => exact hp.elim
  | c10 p =>
    obtain ⟨hbus, hplaced⟩ := hp
    have hcaptured := (C10Pll.captures reader p hbus hready).post
    obtain ⟨q, rfl, hended⟩ : ∃ q', q = c10 q' ∧ (C10Pll.capture h).run p s = ((r, q'), s') := by
      cases hrun
      exact ⟨_, rfl, rfl⟩
    rw [hended] at hcaptured
    cases r with
    | error e =>
      obtain ⟨hfile, hpassed⟩ := hcaptured
      exact ⟨⟨hfile.bus, hfile.placed hplaced⟩, rfl,
        hpassed.mono fun _ hm => congrArg PhyMemory.byte hm, nofun⟩
    | ok u =>
      obtain ⟨⟨hfile, hpassed, -⟩, hread⟩ := hcaptured
      refine ⟨⟨hfile.bus, hfile.placed hplaced⟩, rfl,
        hpassed.mono fun _ hm => congrArg PhyMemory.byte hm, fun _ => ⟨hfile.placed hplaced, ?_⟩⟩
      exact C10Pll.found_live hfile hplaced hread
  | c20 p =>
    have hcaptured := (C20Pll.captures reader p hp hready).post
    obtain ⟨q, rfl, hended⟩ : ∃ q', q = c20 q' ∧ (C20Pll.capture h).run p s = ((r, q'), s') := by
      cases hrun
      exact ⟨_, rfl, rfl⟩
    rw [hended] at hcaptured
    cases r with
    | error e => exact ⟨hcaptured.1, rfl, hcaptured.2, nofun⟩
    | ok u =>
      obtain ⟨⟨hbus, hpassed⟩, hlaidOut⟩ := hcaptured
      have hlaidOut : q.LaidOut reader.byte
          fun addr word => word = (phy.memory s).word ⟨q.bus.port, addr⟩ := by
        rw [show q.bus = bus from hbus]
        exact hlaidOut
      have hmirrors := hlaidOut.mirrors
      refine ⟨hbus, rfl, hpassed, fun _ => ⟨hmirrors.running, ?_⟩⟩
      show (q.quotient.value .found, q.remainder.value .found) = _
      rw [hmirrors.quotient, hmirrors.remainder]
      rfl

end

end Pll

end Retune
