import Retune.Proofs.DividerFields
import Retune.Proofs.LateStatus

/-!
# C20 PLLs under faults

A capture that succeeds has found the words of the PHY, whatever became of its
transactions, and a capture changes none. Unless a refusal goes unnoticed, programming
changes the running quotient and remainder and the word that loads them.
-/

namespace Retune

variable {σ : Type} {h : Host σ}

theorem MemoryPhy.Passed.same {phy : MemoryPhy h} {M : PhyMemory → Prop} {s₀ s s' : σ}
    (hs : Passed phy M s₀ s) (hsame : phy.Same s s') : Passed phy M s₀ s' where
  sound := hsame.sound
  prompt hp := hsame.prompt (hs.prompt hp)
  clear l hl hclear := by
    rw [hsame.lane]
    exact hs.clear l hl hclear
  memory := by
    rw [hsame.memory]
    exact hs.memory

/-! ## Reading -/

namespace MemoryPhy
variable {phy : MemoryPhy h} {bus : MessageBus} {s₀ s : σ}

theorem gives_readFrom (hl : phy.isLane (bus.laneOf 0)) (hs : Passed phy (· = phy.memory s₀) s₀ s)
    (addr : UInt16) :
    Gives (bus.readByte h 0 addr).run s
      (upon (fun value s' =>
          (Passed phy (· = phy.memory s₀) s₀ s' ∧ (phy.lane s' (bus.laneOf 0)).IsClear) ∧
            ((phy.lane s (bus.laneOf 0)).IsClear →
              value = (phy.memory s₀).answer ⟨bus.port, 0, addr &&& 0xFFF⟩))
        fun s' => Passed phy (· = phy.memory s₀) s₀ s') := by
  have hread : Gives (bus.readByte h 0 addr).run s _ :=
    gives_readByte (M := (· = phy.memory s₀)) hl hs.sound hs.memory
  refine hread.imp (fun value s' hs' => ?_) fun s' hs' => hs.trans hs'
  obtain ⟨⟨hs', hclear'⟩, hvalue⟩ := hs'
  refine ⟨⟨hs.trans hs', hclear'⟩, fun hclear => ?_⟩
  rw [hvalue hclear, hs'.memory]

end MemoryPhy

/-- Reads of lane 0 from `s₀` on find the memory as it is there. Only the first of them can
take a response that was left before. -/
def LatePhy.reader (phy : LatePhy h) {bus : MessageBus} (hl : phy.isLane (bus.laneOf 0)) (s₀ : σ) :
    Reader h bus where
  ready := MemoryPhy.Passed phy.toMemoryPhy (· = phy.memory s₀) s₀
  good s := MemoryPhy.Passed phy.toMemoryPhy (fun m => m.word = (phy.memory s₀).word) s₀ s ∧
    (phy.lane s (bus.laneOf 0)).IsClear ∧ ¬ phy.late s (bus.laneOf 0)
  missed := MemoryPhy.Passed phy.toMemoryPhy (· = phy.memory s₀) s₀
  lost := MemoryPhy.Passed phy.toMemoryPhy (fun m => m.word = (phy.memory s₀).word) s₀
  byte addr value := (phy.lane s₀ (bus.laneOf 0)).IsClear →
    value = (phy.memory s₀).answer ⟨bus.port, 0, addr &&& 0xFFF⟩
  word addr value := value = (phy.memory s₀).word ⟨bus.port, addr⟩
  lost_of_missed hs := hs.mono fun _ hm => congrArg PhyMemory.word hm
  readByte {s} addr hs := by
    refine ((MemoryPhy.gives_readFrom hl hs addr).both (phy.gives_readByte hl hs.sound)).imp
      (fun value s' hs' => ?_) fun s' hs' => hs'.1
    obtain ⟨⟨⟨hs', hclear'⟩, hvalue⟩, -, honTime⟩ := hs'
    exact ⟨⟨hs', hs'.mono fun _ hm => congrArg _ hm, hclear', honTime⟩,
      fun hclear => hvalue (hs.clear _ hl hclear)⟩
  readWord {s} addr hs := by
    obtain ⟨hs, -, honTime⟩ := hs
    have hmemory : (phy.memory s).word = (phy.memory s₀).word := hs.memory
    refine (phy.gives_readWord hl hs.sound honTime addr).imp (fun value s' hs' => ?_) fun s' hs' => ?_
    · obtain ⟨hs', hvalue, hclear', honTime'⟩ := hs'
      rw [hmemory] at hs' hvalue
      exact ⟨⟨hs.trans hs', hclear', honTime'⟩, hvalue⟩
    · rw [hmemory] at hs'
      exact hs.trans hs'
  reportReady {s} n hs := hs.same (phy.report n hs.sound)
  reportGood {s} n hs := by
    obtain ⟨hs, hclear, honTime⟩ := hs
    have hnotice := phy.report n hs.sound
    refine ⟨hs.same hnotice, ?_, fun hlate => honTime (phy.reportLate n hs.sound hlate)⟩
    rw [hnotice.lane]
    exact hclear

namespace C20Pll

/-! ## Programming -/

def quotientWord (p : C20Pll) : SramWord := ⟨p.bus.port, p.block.fractionAddrs.1.toUInt16⟩

def remainderWord (p : C20Pll) : SramWord := ⟨p.bus.port, p.block.fractionAddrs.2.toUInt16⟩

def updateWord (p : C20Pll) : SramWord := ⟨p.bus.port, p.block.updateAddr⟩

def fractionWords (p : C20Pll) : List SramWord := [p.quotientWord, p.remainderWord, p.updateWord]

theorem fractionWords_nodup (p : C20Pll) : p.fractionWords.Nodup := by
  have hblock (block : Mpll) : [block.fractionAddrs.1.toUInt16, block.fractionAddrs.2.toUInt16,
      block.updateAddr].Nodup := by
    cases block <;> decide
  exact (hblock p.block).map fun _ _ => by simp

/-- The slots 8 and 9 are those of the words in use. -/
structure Running (p : C20Pll) : Prop where
  quotient : p.quotient.addr = p.block.fractionAddrs.1
  remainder : p.remainder.addr = p.block.fractionAddrs.2

def programmed (p : C20Pll) (v : Version) (was : SramWord → UInt16) : SramWord → UInt16 :=
  Function.update (Function.update (Function.update was p.quotientWord (p.quotient.value v))
    p.remainderWord (p.remainder.value v)) p.updateWord 1

structure InUse (p : C20Pll) (v : Version) (word : SramWord → UInt16) : Prop where
  quotient : word p.quotientWord = p.quotient.value v
  remainder : word p.remainderWord = p.remainder.value v
  update : word p.updateWord = 1

theorem inUse_programmed (p : C20Pll) (v : Version) (was : SramWord → UInt16) :
    p.InUse v (p.programmed v was) := by
  have hnodup := p.fractionWords_nodup
  simp only [fractionWords, List.nodup_cons, List.mem_cons, List.not_mem_nil, not_or, or_false,
    not_false_eq_true, List.nodup_nil, and_true] at hnodup
  obtain ⟨⟨hquotient, hquotient'⟩, hremainder⟩ := hnodup
  refine ⟨?_, ?_, Function.update_self _ _ _⟩ <;> unfold programmed
  · rw [Function.update_of_ne hquotient', Function.update_of_ne hquotient, Function.update_self]
  · rw [Function.update_of_ne hremainder, Function.update_self]

theorem programmed_of_not_mem {p : C20Pll} {w : SramWord} (hw : w ∉ p.fractionWords) (v : Version)
    (was : SramWord → UInt16) : p.programmed v was w = was w := by
  simp only [fractionWords, List.mem_cons, List.not_mem_nil, not_or, or_false] at hw
  unfold programmed
  rw [Function.update_of_ne hw.2.2, Function.update_of_ne hw.2.1, Function.update_of_ne hw.1]

/-- Every word is what it was, or what it is when `now`. -/
def Between (was now word : SramWord → UInt16) : Prop := ∀ w, word w = was w ∨ word w = now w

theorem Between.update {was now word : SramWord → UInt16} (h : Between was now word) {w : SramWord}
    {value : UInt16} (hw : now w = value) : Between was now (Function.update word w value) := by
  intro w'
  by_cases hsame : w' = w
  · rw [hsame, Function.update_self]
    exact .inr hw.symm
  · rw [Function.update_of_ne hsame]
    exact h w'

theorem gives_program_watched (phy : MemoryPhy h) {p : C20Pll} {bus : MessageBus} (hbus : p.bus = bus)
    (hport : ∀ lane, lane = 0 ∨ lane = 1 → phy.isLane (bus.laneOf lane)) (hp : p.Running)
    {r₀ : Watched σ} (hs : (phy.watched bus.port).sound r₀) (v : Version) :
    let was := (phy.memory r₀.world).word
    Gives (p.program (phy.watch bus.port) v).run r₀
      (upon (fun _ r => MemoryPhy.Seen phy bus.port (fun _ => True)
          (fun m => m.word = p.programmed v was) r₀ r)
        fun r => MemoryPhy.Seen phy bus.port (fun _ => True)
          (fun m => Between was (p.programmed v was) m.word) r₀ r) := by
  subst hbus
  intro was
  have hinUse := p.inUse_programmed v was
  have hlane0 : LaneSet.lane0.IsProper := by decide
  have hwrite {r : Watched σ} (hs : (phy.watched p.bus.port).sound r) {W : SramWord → UInt16}
      (hW : r.missed = true ∨ (phy.memory r.world).word = W) (addr value : UInt16) :=
    MemoryPhy.gives_writeWord_watched hport hlane0 hs hW addr value
  unfold program
  rw [hp.quotient, hp.remainder]
  -- a write that fails has stored its word or not, and either lies between
  have hbetween : Between was (p.programmed v was) was := fun _ => .inl rfl
  have hbetween₁ := hbetween.update hinUse.quotient
  have hbetween₂ := hbetween₁.update hinUse.remainder
  refine gives_next (hwrite hs (.inr rfl) _ _) (fun r hr => hr.mono ?_) fun _ r₁ hr₁ => ?_
  · rintro m (hm | hm) <;> rw [hm]
    · exact hbetween
    · exact hbetween₁
  refine gives_next (hwrite hr₁.sound hr₁.told _ _) (fun r hr => (hr₁.trans hr).mono ?_)
    fun _ r₂ hr₂ => ?_
  · rintro m (hm | hm) <;> rw [hm]
    · exact hbetween₁
    · exact hbetween₂
  replace hr₂ := hr₁.trans hr₂
  refine (hwrite hr₂.sound hr₂.told _ _).imp (fun _ r₃ hr₃ => hr₂.trans hr₃)
    fun r hr => (hr₂.trans hr).mono ?_
  rintro m (hm | hm) <;> rw [hm]
  · exact hbetween₂
  · exact hbetween₂.update hinUse.update

theorem gives_program (phy : MemoryPhy h) {p : C20Pll}
    (hport : ∀ lane, lane = 0 ∨ lane = 1 → phy.isLane (p.bus.laneOf lane)) (hp : p.Running) {s : σ}
    (hs : phy.sound s) (hprompt : phy.prompt s) (v : Version) :
    let was := (phy.memory s).word
    Gives (p.program h v).run s
      (upon (fun _ s' => MemoryPhy.Passed phy (fun m => m.word = p.programmed v was) s s')
        fun s' => MemoryPhy.Passed phy (fun m => Between was (p.programmed v was) m.word) s s') := by
  intro was
  have hstart : (phy.watched p.bus.port).sound (.start s) := hs
  have hprogram := gives_program_watched phy rfl hport hp hstart v
  exact Gives.carried (r := Watched.start s)
    (((phy.parallel_watch p.bus.port).program (.c20 p) v).1 _)
    (hprogram.imp (fun _ r hr => hr.onTime hport hprompt) fun r hr => hr.onTime hport hprompt)

/-! ## Captured slots -/

def slotAt (m : PhyMemory) (port addr : UInt32) : Slot UInt16 :=
  (Slot.empty addr).capture (m.word ⟨port, addr.toUInt16⟩)

/-- The context is the one that the memory says is in use. -/
def InContext (m : PhyMemory) (p : C20Pll) : Prop :=
  p.contextB = (m.byte ⟨p.bus.port, 0, serdesRateAddr⟩ &&& 1 != 0)

/-- The slots hold what the memory has for the context and for the block that it says is in
use there. -/
structure Mirrors (m : PhyMemory) (p : C20Pll) : Prop where
  block : p.block = if usesBlockB.isSet
    (m.word ⟨p.bus.port, (txAddr p.contextB 0).toUInt16⟩).toUInt32 then .b else .a
  tx : ∀ i : Fin 3, p.tx.get i = slotAt m p.bus.port (txAddr p.contextB i)
  cmn : ∀ i : Fin 4, p.cmn.get i = slotAt m p.bus.port (cmnAddr p.contextB i)
  mpll : ∀ i : Fin 10, i ≠ 8 → i ≠ 9 →
    p.mpll.get i = slotAt m p.bus.port (mpllAddr p.block p.contextB i)
  quotient : p.quotient = slotAt m p.bus.port p.block.fractionAddrs.1
  remainder : p.remainder = slotAt m p.bus.port p.block.fractionAddrs.2

section
variable {m : PhyMemory} {p : C20Pll} {byte : UInt16 → UInt8 → Prop}
  (hp : p.LaidOut byte fun addr word => word = m.word ⟨p.bus.port, addr⟩)
include hp

theorem LaidOut.inContext
    (hbyte : ∀ addr value, byte addr value → value = m.answer ⟨p.bus.port, 0, addr &&& 0xFFF⟩) :
    p.InContext m := by
  obtain ⟨rate, hrate, hcontext⟩ := hp.context
  unfold InContext
  rw [hcontext, hbyte _ _ hrate]
  rfl

theorem LaidOut.mirrors : p.Mirrors m := by
  have hslot {addr : UInt32} {x : Slot UInt16}
      (hx : x.ReadFrom (fun addr word => word = m.word ⟨p.bus.port, addr⟩) addr) :
      x = slotAt m p.bus.port addr := by
    obtain ⟨v, rfl, rfl⟩ := hx
    rfl
  refine ⟨?_, fun i => hslot (hp.tx i), fun i => hslot (hp.cmn i),
    fun i h8 h9 => hslot (hp.mpll i h8 h9), hslot hp.quotient, hslot hp.remainder⟩
  rw [hp.block, hslot (hp.tx 0)]
  rfl

end

theorem Mirrors.running {m : PhyMemory} {p : C20Pll} (hp : p.Mirrors m) : p.Running :=
  ⟨congrArg Slot.addr hp.quotient, congrArg Slot.addr hp.remainder⟩

end C20Pll

/-! ## Calls -/

theorem Pll.gives_retune {I : σ → Prop} (hreport : ∀ n s, I s → I (h.report n s).2) (p : Pll)
    (target : Float) {s : σ} (hs : I s) :
    Gives (p.retune h target).run s (upon (fun _ => I) I) := by
  rw [retune_eq]
  have hmap {α : Type} {f : α → Pll} {x : Fallible σ α} (hx : Gives x.run s (upon (fun _ => I) I)) :
      Gives (f <$> x).run s (upon (fun _ => I) I) := by
    have hkept := hx.either (fun _ _ => id) fun _ => id
    unfold Gives
    rw [map_run]
    cases (x.run s).1 <;> exact hkept
  have hvalid (what : String) : Gives (h.requireFrequency target what).run s
      (upon (fun _ => I) I) := by
    unfold Gives
    rw [Environment.requireFrequency_run]
    split
    · exact hs
    · exact hreport _ _ hs
  have hnotice (n : Notice) {s : σ} (hs : I s) :
      Gives (liftM (h.report n) : Fallible σ Unit).run s (upon (fun _ => I) I) := hreport n s hs
  cases p with
  | combo p | c10 p =>
    refine hmap (gives_then (hvalid _) fun _ s₁ hs₁ => ?_)
    exact gives_then (hnotice _ hs₁) fun _ _ => id
  | dkl p =>
    refine hmap (gives_then (hvalid _) fun _ s₁ hs₁ => ?_)
    dsimp only
    split
    · refine gives_then (hnotice _ hs₁) fun _ s₂ hs₂ => ?_
      exact gives_then (P := fun _ => I) hs₂ fun _ _ hs => gives_then (hnotice _ hs) fun _ _ => id
    · exact gives_then (hnotice _ hs₁) fun _ _ => id
  | c20 p =>
    refine hmap (gives_then (hvalid _) fun _ s₁ hs₁ => ?_)
    dsimp only
    split
    · refine gives_then (hnotice _ hs₁) fun _ s₂ hs₂ => ?_
      split
      · exact gives_then (hnotice _ hs₂) fun _ s hs => gives_then (hnotice _ hs) fun _ _ => id
      · exact gives_then (hnotice _ hs₂) fun _ _ => id
    · split
      · exact gives_then (hnotice _ hs₁) fun _ s hs => gives_then (hnotice _ hs) fun _ _ => id
      · exact gives_then (hnotice _ hs₁) fun _ _ => id
  | dpMn p => exact hmap (gives_then (hvalid _) fun _ _ => id)

theorem Pll.retune_untouched (phy : MemoryPhy h) (p : Pll) (target : Float) {s : σ} (hs : phy.sound s) :
    phy.Same s ((p.retune h target).run s).2 := by
  have hreport (n : Notice) (s' : σ) (hs' : phy.Same s s') : phy.Same s (h.report n s').2 :=
    hs'.trans (phy.report n hs'.sound)
  exact (gives_retune hreport p target ⟨hs, id, rfl, rfl⟩).either (fun _ _ => id) fun _ => id

namespace PllCall

theorem retune_same (phy : MemoryPhy h) (target : Float) {c : Pll × σ} (hs : phy.sound c.2) :
    phy.Same c.2 ((PllCall.retune target).leave h c).2 := by
  have hstate : ((PllCall.retune target).leave h c).2 = ((c.1.retune h target).run c.2).2 := by
    unfold PllCall.leave
    rw [PllCall.settles_retune target c.1 c.2]
    rcases (c.1.retune h target).run c.2 with ⟨e | p, s⟩ <;> rfl
  rw [hstate]
  exact c.1.retune_untouched phy target hs

theorem parallel {ρ : Type} {h' : Host ρ} {R : (α : Type) → StateM ρ α → StateM σ α → Prop}
    (hr : Host.Parallel h' h R) (call : PllCall) (p : Pll) :
    R _ ((call.perform h').run p) ((call.perform h).run p) := by
  cases call with
  | retune target => exact hr.takeTarget p target
  | program v => exact hr.holdThen (hr.current p) fun _ => hr.holdTry (hr.program _ v)

section
variable (phy : MemoryPhy h) (port : UInt32)

def Unnoticed (calls : List PllCall) (c : Pll × σ) : Prop :=
  (calls.foldl (leave (phy.watch port)) (c.1, .start c.2)).2.missed = true

instance (calls : List PllCall) (c : Pll × σ) : Decidable (Unnoticed phy port calls c) :=
  inferInstanceAs (Decidable (_ = true))

theorem leave_watched (call : PllCall) (c : Pll × Watched σ) :
    call.leave h (c.1, c.2.world) =
        ((call.leave (phy.watch port) c).1, (call.leave (phy.watch port) c).2.world) ∧
      (c.2.missed = true → (call.leave (phy.watch port) c).2.missed = true) := by
  obtain ⟨hcarries, honward⟩ := parallel (phy.parallel_watch port) call c.1
  refine ⟨?_, honward c.2⟩
  unfold leave
  rw [hcarries c.2]

theorem run_watched : ∀ (calls : List PllCall) (c : Pll × Watched σ),
    calls.foldl (leave h) (c.1, c.2.world) =
      ((calls.foldl (leave (phy.watch port)) c).1, (calls.foldl (leave (phy.watch port)) c).2.world)
  | [], _ => rfl
  | call :: calls, c => by
    rw [List.foldl_cons, List.foldl_cons, (leave_watched phy port call c).1]
    exact run_watched calls _

end

end PllCall

namespace C20Pll

theorem of_asFound {q : C20Pll} : ∀ {p : Pll}, p.asFound = .c20 q → q.Running → ∃ p' : C20Pll,
    p = .c20 p' ∧ p'.bus = q.bus ∧ p'.fractionWords = q.fractionWords ∧ p'.Running
  | .combo _, hp, _ | .dkl _, hp, _ | .c10 _, hp, _ | .dpMn _, hp, _ => nomatch hp
  | .c20 p, hp, hq => by
    obtain rfl := Pll.c20.inj hp
    refine ⟨p, rfl, rfl, rfl, ⟨?_, ?_⟩⟩
    · simpa [quotient, Slot.asFound] using hq.quotient
    · simpa [remainder, Slot.asFound] using hq.remainder

/-- What holds after any calls since `s₀`, when `q` had been captured. -/
structure Confined (phy : MemoryPhy h) (q : C20Pll) (s₀ : σ) (c : Pll × Watched σ) : Prop where
  retuned : PllCall.Retuned (.c20 q) c.1
  seen : MemoryPhy.Seen phy q.bus.port (fun _ => True)
    (fun m => ∀ w ∉ q.fractionWords, m.word w = (phy.memory s₀).word w) (.start s₀) c.2

section
variable {phy : MemoryPhy h} {q : C20Pll} {s₀ : σ}
  (hport : ∀ lane, lane = 0 ∨ lane = 1 → phy.isLane (q.bus.laneOf lane)) (hq : q.Running)
include hport hq

theorem Confined.leave {c : Pll × Watched σ} (hc : Confined phy q s₀ c) (call : PllCall) :
    Confined phy q s₀ (call.leave (phy.watch q.bus.port) c) := by
  refine ⟨hc.retuned.leave call, ?_⟩
  have honward := (PllCall.leave_watched phy q.bus.port call c).2
  cases call with
  | retune target =>
    have hsame := PllCall.retune_same (phy.watched q.bus.port) target hc.seen.sound
    refine ⟨hc.seen.toPassed.same hsame, hc.seen.told.imp honward fun hm => ?_⟩
    rw [show phy.memory _ = phy.memory c.2.world from hsame.memory]
    exact hm
  | program v =>
    obtain ⟨p, r⟩ := c
    obtain ⟨p, rfl, hbus, hwords, hp⟩ := of_asFound hc.retuned.found hq
    have hprogram := gives_program_watched phy hbus hport hp hc.seen.sound v
    have hbetween := hprogram.either (fun _ _ hr => hr.mono fun m hm _ => .inr (congrFun hm _))
      fun _ => id
    refine ⟨hc.seen.toPassed.trans hbetween.toPassed, ?_⟩
    rcases hc.seen.told with hmissed | hkept
    · exact .inl (honward hmissed)
    · refine hbetween.told.imp_right fun hm w hw => ?_
      have hout := hkept w hw
      rw [← hwords] at hw
      rcases hm w with hsame | hsame
      · exact hsame.trans hout
      · exact hsame.trans ((programmed_of_not_mem hw v _).trans hout)

theorem Confined.run : ∀ (calls : List PllCall) {c : Pll × Watched σ}, Confined phy q s₀ c →
    Confined phy q s₀ (calls.foldl (PllCall.leave (phy.watch q.bus.port)) c)
  | [], _, hc => hc
  | call :: calls, _, hc => Confined.run calls (hc.leave hport hq call)

omit hq in
theorem program_words {p : C20Pll} (hbus : p.bus = q.bus) (hp : p.Running) {s : σ} (hs : phy.sound s)
    (v : Version) (hnoticed : ¬ PllCall.Unnoticed phy q.bus.port [.program v] (.c20 p, s)) :
    let was := (phy.memory s).word
    let now := (phy.memory ((PllCall.program v).leave h (.c20 p, s)).2).word
    Between was (p.programmed v was) now ∧
      ((PllCall.program v).answer h (.c20 p, s) = .ok () → p.InUse v now) := by
  intro was now
  have hgives : Gives (p.program h v).run s
      (upon (fun _ s' => (phy.memory s').word = p.programmed v was)
        fun s' => Between was (p.programmed v was) (phy.memory s').word) := by
    refine MemoryPhy.gives_noticed (x := (p.program · v))
      ((phy.parallel_watch q.bus.port).program (.c20 p) v).1 hnoticed ?_
    have hstart : (phy.watched q.bus.port).sound (.start s) := hs
    exact (gives_program_watched phy hbus hport hp hstart v).imp (fun _ _ hr => hr.told)
      fun _ hr => hr.told
  refine ⟨hgives.either (fun _ _ hs' _ => .inr (congrFun hs' _)) fun _ => id, fun hok => ?_⟩
  rw [show now = p.programmed v was from hgives.ok hok]
  exact p.inUse_programmed v was

end

end C20Pll

/-- A C20 capture changes no word of SRAM, whatever becomes of its transactions, and one
that succeeds leaves slots that mirror the memory, in the context that is in use unless a
response was left before. If no refusal goes unnoticed, calls after it change three words at
most, none of which programming leaves at anything but what it was or what the slots say;
programming that succeeds has put the fraction in use. -/
theorem c20_words_confined {h : Host σ} (phy : LatePhy h) (p : C20Pll)
    (hport : ∀ lane, lane = 0 ∨ lane = 1 → phy.isLane (p.bus.laneOf lane)) (s : σ)
    (hs : phy.sound s) :
    let m := phy.memory s
    let ended := Pll.capture h (.c20 p) s
    (phy.memory ended.2).word = m.word ∧
      (ended.1.1 = .ok () → ∃ q : C20Pll, ended.1.2 = .c20 q ∧ q.bus = p.bus ∧
        ((phy.lane s (p.bus.laneOf 0)).IsClear → q.InContext m) ∧ q.Mirrors m ∧
          ∀ calls : List PllCall,
            let left := calls.foldl (PllCall.leave h) (ended.1.2, ended.2)
            let was := (phy.memory left.2).word
            (¬ PllCall.Unnoticed phy.toMemoryPhy p.bus.port calls (ended.1.2, ended.2) →
              ∀ w ∉ q.fractionWords, was w = m.word w) ∧ ∃ q' : C20Pll, left.1 = .c20 q' ∧
                (Pll.c20 q').asFound = .c20 q ∧ ∀ v : Version,
                  ¬ PllCall.Unnoticed phy.toMemoryPhy p.bus.port [.program v] left →
                    let now := (phy.memory ((PllCall.program v).leave h left).2).word
                    C20Pll.Between was (q'.programmed v was) now ∧
                      ((PllCall.program v).answer h left = .ok () → q'.InUse v now)) := by
  intro m ended
  let reader := phy.reader (hport 0 (.inl rfl)) s
  have hready : reader.ready s := ⟨hs, id, fun _ _ => id, rfl⟩
  have hcaptured := (C20Pll.captures reader p rfl hready).post
  rcases hrun : (C20Pll.capture h).run p s with ⟨⟨r, q⟩, s₁⟩
  rw [hrun] at hcaptured
  have hended : ended = ((r, .c20 q), s₁) := by
    show Pll.capture h (.c20 p) s = _
    unfold Pll.capture
    dsimp only
    rw [show C20Pll.capture h p s = ((r, q), s₁) from hrun]
  rw [hended]
  cases r with
  | error e => exact ⟨hcaptured.2.memory, nofun⟩
  | ok u =>
    obtain ⟨⟨hbus, hpassed, -⟩, hlaidOut⟩ := hcaptured
    have hlaidOut : q.LaidOut reader.byte fun addr word => word = m.word ⟨q.bus.port, addr⟩ := by
      rw [hbus]
      exact hlaidOut
    have hcontext (hclear : (phy.lane s (p.bus.laneOf 0)).IsClear) : q.InContext m := by
      refine hlaidOut.inContext fun addr value hvalue => ?_
      rw [hbus]
      exact hvalue hclear
    have hmirrors := hlaidOut.mirrors
    refine ⟨hpassed.memory, fun _ => ⟨q, rfl, hbus, hcontext, hmirrors, fun calls => ?_⟩⟩
    have hfound : (Pll.c20 q).asFound = .c20 q := Pll.asFound_capture hended
    rw [← hbus] at hport ⊢
    have hstart : C20Pll.Confined phy.toMemoryPhy q s₁ (.c20 q, .start s₁) :=
      ⟨⟨hfound, Pll.inFields_of_asFound hfound⟩,
        ⟨⟨hpassed.sound, id, fun _ _ => id, trivial⟩, .inr fun _ _ => rfl⟩⟩
    have hleft := C20Pll.Confined.run hport hmirrors.running calls hstart
    have hrun := PllCall.run_watched phy.toMemoryPhy q.bus.port calls (.c20 q, .start s₁)
    dsimp only at hrun ⊢
    rw [show (Watched.start s₁).world = s₁ from rfl] at hrun
    rw [hrun]
    obtain ⟨q', hq', hbus', -, hrunning⟩ := C20Pll.of_asFound hleft.retuned.found hmirrors.running
    refine ⟨fun hnoticed w hw => ?_, q', hq', hq' ▸ hleft.retuned.found, fun v hnoticed => ?_⟩
    · exact (hleft.seen.told.resolve_left hnoticed w hw).trans (congrFun hpassed.memory w)
    · rw [hq'] at hnoticed ⊢
      exact C20Pll.program_words hport hbus' hrunning hleft.seen.sound v hnoticed

theorem Hardware.Settles.withWords {ports : Nat} {hw : Hardware} (hs : hw.Settles ports)
    (words : Store SramWord UInt16) : ({ hw with words } : Hardware).Settles ports :=
  ⟨⟨hs.size, hs.queued, hs.faults, hs.controlLags, hs.statusLags⟩, hs.resets, hs.waits⟩

def Played.ofQuotient (quotient : UInt16) (faults : List BusFault) : Played :=
  let start := untouched 1 .empty 0 faults
  { start with hardware := { start.hardware with words := Store.empty.set ⟨0, 0x130⟩ quotient } }

def Played.faulty : Played :=
  ofQuotient 0x4000 ([.refuse 0x8000, .hang, .delay 3] ++ .replicate 76 .ok ++
    [.refuse 0x8000, .ok, .ok, .ok, .delay 3, .refuse 0x8000])

theorem c20_words_confined_faulty : ∃ q s₁,
    Pll.capture Played.host (.c20 (.ofBus (.ofPort 0))) Played.faulty = ((.ok (), .c20 q), s₁) ∧
      q.InContext Played.faulty.hardware.memory ∧ q.Mirrors Played.faulty.hardware.memory ∧
        let left := [PllCall.retune 300000.0, .program .proposed].foldl
          (PllCall.leave Played.host) (.c20 q, s₁)
        (∀ w ∉ q.fractionWords,
            left.2.hardware.memory.word w = Played.faulty.hardware.memory.word w) ∧
          ∃ q', left.1 = .c20 q' ∧ (PllCall.program .found).answer Played.host left = .ok () ∧
            q'.InUse .found
              ((PllCall.program .found).leave Played.host left).2.hardware.memory.word := by
  let phy := Played.latePhy 1 (by decide)
  let captured := Pll.capture Played.host (.c20 (.ofBus (.ofPort 0))) Played.faulty
  let calls : List PllCall := [.retune 300000.0, .program .proposed]
  have hs : Played.faulty.hardware.Settles 1 :=
    (Played.settles_untouched 1 .empty (by simp [BusWord.errorSet])).withWords _
  have hclear : (phy.lane Played.faulty ((MessageBus.ofPort 0).laneOf 0)).IsClear := by
    unfold LaneState.IsClear
    decide +kernel
  have hevaluated : captured.1.1 = .ok () ∧
      ¬ PllCall.Unnoticed phy.toMemoryPhy 0 calls (captured.1.2, captured.2) ∧
      ¬ PllCall.Unnoticed phy.toMemoryPhy 0 [.program .found]
        (calls.foldl (PllCall.leave Played.host) (captured.1.2, captured.2)) ∧
      (PllCall.program .found).answer Played.host
        (calls.foldl (PllCall.leave Played.host) (captured.1.2, captured.2)) = .ok () := by
    decide +kernel
  obtain ⟨hok, hnoticed, hrestored, hprogrammed⟩ := hevaluated
  obtain ⟨-, hcaptured⟩ := c20_words_confined phy (.ofBus (.ofPort 0))
    (fun lane hlane => ⟨Nat.one_pos, hlane⟩) Played.faulty hs
  rcases hrun : captured with ⟨⟨r, p⟩, s₁⟩
  rw [show Pll.capture Played.host (.c20 (.ofBus (.ofPort 0))) Played.faulty = _ from hrun] at hcaptured
  rw [hrun] at hok hnoticed hrestored hprogrammed
  obtain rfl : r = .ok () := hok
  obtain ⟨q, hq, -, hcontext, hmirrors, hcalls⟩ := hcaptured rfl
  obtain rfl : p = .c20 q := hq
  obtain ⟨hkept, q', hq', -, hprograms⟩ := hcalls calls
  exact ⟨q, s₁, hrun, hcontext hclear, hmirrors, hkept hnoticed, q', hq', hprogrammed,
    (hprograms .found hrestored).2 hprogrammed⟩

/-- What is written depends on the captured fraction only. Evaluated on the PLL itself, the
capture would run again in each transaction. -/
theorem C20Pll.program_found_run (bus : MessageBus) (quotient remainder : UInt16) {q : C20Pll}
    (hq : q.bus = bus ∧ q.block = .a ∧ q.quotient = ⟨0x130, quotient, quotient⟩ ∧
      q.remainder = ⟨0x131, remainder, remainder⟩) (s : Played) :
    (q.program Played.host .found).run s = (do
      bus.writeWord Played.host .lane0 0x130 quotient
      bus.writeWord Played.host .lane0 0x131 remainder
      bus.writeWord Played.host .lane0 0x110 1 : Fallible Played Unit).run s := by
  obtain ⟨hbus, hblock, hquotient, hremainder⟩ := hq
  unfold C20Pll.program
  rw [hbus, hblock, hquotient, hremainder]
  rfl

/-- A response that is left from before is taken for that of the first read, which is left
pending: the capture finds the words of a context that is not in use. In another run it
meets no fault, but then the first byte of an address shows late, and behind it the refusal
of the second does not show: what is restored ends up in a word that is none of the three. -/
theorem c20_words_mistaken :
    (let start := (Played.ofQuotient 0x4000 [.hang]).withResponse ((MessageBus.ofPort 0).laneOf 0) 1
      let ended := C20Pll.capture Played.host (.ofBus (.ofPort 0)) start
      start.hardware.Settles 1 ∧ ended.1.1 = .ok () ∧ ended.1.2.contextB = true ∧
        start.hardware.byte ⟨0, 0, C20Pll.serdesRateAddr⟩ &&& 1 = 0) ∧
      let start := Played.ofQuotient 0x4000 (.replicate 77 .ok ++ [.delay 5, .refuse 0x8000])
      let ended := C20Pll.capture Played.host (.ofBus (.ofPort 0)) start
      let left := (ended.1.2.program Played.host .found).run ended.2
      start.hardware.Settles 1 ∧ ended.1.1 = .ok () ∧ left.1 = .ok () ∧
        ⟨0, 0x100⟩ ∉ ended.1.2.fractionWords ∧
          left.2.hardware.word ⟨0, 0x100⟩ ≠ start.hardware.word ⟨0, 0x100⟩ := by
  dsimp only
  constructor
  · refine ⟨Played.settles_withResponse ?_ 1, by decide +kernel⟩
    exact (Played.settles_untouched 1 .empty (by simp)).withWords _
  · rw [C20Pll.program_found_run (.ofPort 0) 0x4000 0 (by decide +kernel)]
    refine ⟨?_, by decide +kernel⟩
    exact (Played.settles_untouched 1 .empty (by simp [BusWord.errorSet])).withWords _

end Retune
