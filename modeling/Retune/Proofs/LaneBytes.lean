import Retune.Proofs.BusSteps

/-!
# Bytes on several lanes

A call on several lanes changes a byte on one after the other, lowest first. If it
succeeds, all of them hold the new value; if it fails, those before the lane it failed on
do, that lane does or does not, and those after it have not been touched.
-/

namespace Retune

open Relation

variable {σ : Type}

/-! ## Bytes at one address -/

/-- An address of a byte that leads nowhere else: none of those of SRAM. -/
structure IsPlain (addr : UInt16) : Prop where
  lt : addr < 0x1000
  outside : addr < SramPort.writeAddrLow ∨ SramPort.readDataHigh < addr

theorem IsPlain.masked {addr : UInt16} (haddr : IsPlain addr) : addr &&& 0xFFF = addr := by
  have hlt : addr.toNat < 2 ^ 12 := UInt16.lt_iff_toNat_lt.mp haddr.lt
  apply UInt16.toNat_inj.mp
  rw [UInt16.toNat_and, show (0xFFF : UInt16).toNat = 2 ^ 12 - 1 from rfl,
    Nat.and_two_pow_sub_one_eq_mod, Nat.mod_eq_of_lt hlt]

theorem IsPlain.ne {addr : UInt16} (haddr : IsPlain addr) {a : UInt16}
    (hlow : SramPort.writeAddrLow ≤ a) (hhigh : a ≤ SramPort.readDataHigh) : addr ≠ a := by
  rintro rfl
  have hout := haddr.outside
  rw [UInt16.lt_iff_toNat_lt, UInt16.lt_iff_toNat_lt] at hout
  rw [UInt16.le_iff_toNat_le] at hlow hhigh
  omega

namespace PhyMemory
variable {addr : UInt16} (haddr : IsPlain addr) (m : PhyMemory) (port : UInt32) (lane value : UInt8)
include haddr

theorem answer_plain : m.answer ⟨port, lane, addr⟩ = m.byte ⟨port, lane, addr⟩ := by
  unfold answer
  rw [if_neg (haddr.ne (by decide) (by decide)), if_neg (haddr.ne (by decide) (by decide))]

theorem store_plain : m.store ⟨port, lane, addr⟩ value =
    { m with byte := Function.update m.byte ⟨port, lane, addr⟩ value } := by
  have hwindow : (m.window port).write addr value = m.window port := by
    unfold SramWindow.write
    simp only [if_neg (haddr.ne (a := SramPort.writeAddrLow) (by decide) (by decide)),
      if_neg (haddr.ne (a := SramPort.writeAddrHigh) (by decide) (by decide)),
      if_neg (haddr.ne (a := SramPort.writeDataHigh) (by decide) (by decide)),
      if_neg (haddr.ne (a := SramPort.readAddrLow) (by decide) (by decide)),
      if_neg (haddr.ne (a := SramPort.readAddrHigh) (by decide) (by decide))]
  unfold store
  dsimp only
  rw [hwindow, Function.update_eq_self,
    if_neg (haddr.ne (a := SramPort.writeDataLow) (by decide) (by decide))]

end PhyMemory

/-- The bytes at one address of a port before and after: `f` has been applied on the lanes
that are `sure`, it has or has not on those that were `tried`, and nothing else has
changed. -/
structure Rewritten (port : UInt32) (addr : UInt16) (f : UInt8 → UInt8) (tried sure : UInt8 → Prop)
    (m m' : PhyMemory) : Prop where
  new : ∀ lane, sure lane → m'.byte ⟨port, lane, addr⟩ = f (m.byte ⟨port, lane, addr⟩)
  either : ∀ lane, tried lane → m'.byte ⟨port, lane, addr⟩ = m.byte ⟨port, lane, addr⟩ ∨
    m'.byte ⟨port, lane, addr⟩ = f (m.byte ⟨port, lane, addr⟩)
  other : ∀ b, (b.port = port → b.addr = addr → ¬ tried b.lane) → m'.byte b = m.byte b
  word : m'.word = m.word
  window : m'.window = m.window

namespace Rewritten
variable {port : UInt32} {addr : UInt16} {f : UInt8 → UInt8} {tried sure tried' sure' : UInt8 → Prop}
  {m m₁ m₂ : PhyMemory}

theorem none (hsure : ∀ lane, ¬ sure lane) (htried : ∀ lane, ¬ tried lane) :
    Rewritten port addr f tried sure m m :=
  ⟨fun lane h => absurd h (hsure lane), fun lane h => absurd h (htried lane), fun _ _ => rfl, rfl, rfl⟩

theorem mono (h : Rewritten port addr f tried sure m m₁) (htried : ∀ lane, tried lane → tried' lane)
    (hsure : ∀ lane, sure' lane → sure lane) : Rewritten port addr f tried' sure' m m₁ where
  new lane hlane := h.new lane (hsure lane hlane)
  either lane _ := by
    by_cases hlane : tried lane
    · exact h.either lane hlane
    · exact .inl (h.other _ fun _ _ => hlane)
  other b hb := h.other b fun hport haddr hlane => hb hport haddr (htried _ hlane)
  word := h.word
  window := h.window

theorem next (haddr : IsPlain addr) (h : Rewritten port addr f tried sure m m₁) {lane : UInt8}
    {S : Prop} (hlane : ¬ tried lane) (hsub : ∀ l, sure l → tried l)
    (hturn : m₂ = m₁ ∨ m₂ = m₁.store ⟨port, lane, addr⟩ (f (m₁.byte ⟨port, lane, addr⟩)))
    (hsure : S → m₂ = m₁.store ⟨port, lane, addr⟩ (f (m₁.byte ⟨port, lane, addr⟩))) :
    Rewritten port addr f (fun l => tried l ∨ l = lane) (fun l => sure l ∨ l = lane ∧ S) m m₂ := by
  have hbefore : m₁.byte ⟨port, lane, addr⟩ = m.byte ⟨port, lane, addr⟩ :=
    h.other _ fun _ _ => hlane
  rw [PhyMemory.store_plain haddr, hbefore] at hturn hsure
  have hkept (b : PhyByte) (hb : b ≠ ⟨port, lane, addr⟩) : m₂.byte b = m₁.byte b := by
    rcases hturn with rfl | rfl
    · rfl
    · exact Function.update_of_ne hb _ _
  have hother {l : UInt8} (hl : tried l) :
      m₂.byte ⟨port, l, addr⟩ = m₁.byte ⟨port, l, addr⟩ := by
    refine hkept _ fun heq => ?_
    obtain rfl : l = lane := congrArg PhyByte.lane heq
    exact hlane hl
  refine ⟨fun l hl => ?_, fun l hl => ?_, fun b hb => ?_, ?_, ?_⟩
  · rcases hl with hl | ⟨rfl, hS⟩
    · rw [hother (hsub l hl)]
      exact h.new l hl
    · rw [hsure hS]
      exact Function.update_self _ _ _
  · rcases hl with hl | rfl
    · rw [hother hl]
      exact h.either l hl
    · rcases hturn with rfl | rfl
      · exact .inl hbefore
      · exact .inr (Function.update_self _ _ _)
  · have hne : b ≠ ⟨port, lane, addr⟩ := by
      rintro rfl
      exact hb rfl rfl (.inr rfl)
    rw [hkept b hne]
    exact h.other b fun hport haddr hl => hb hport haddr (.inl hl)
  · rcases hturn with rfl | rfl <;> exact h.word
  · rcases hturn with rfl | rfl <;> exact h.window

end Rewritten

/-! ## Lanes of a port -/

theorem addr_ne_control (port : UInt32) {lane lane' : UInt8} (hlane : lane = 0 ∨ lane = 1)
    (hlane' : lane' = 0 ∨ lane' = 1) (hne : lane' ≠ lane) {a : UInt32}
    (ha : a = controlRegister port lane ∨ a = statusRegister port lane) :
    a ≠ controlRegister port lane' := by
  unfold statusRegister controlRegister at *
  generalize (if port < firstTypeCPort then (0x64040 : UInt32) + port * 0x100
    else 0x16F240 + (port - firstTypeCPort) * 0x200) = base at *
  rcases hlane with rfl | rfl <;> rcases hlane' with rfl | rfl
  · exact absurd rfl hne
  · rcases ha with rfl | rfl <;> simp
  · rcases ha with rfl | rfl <;> simp [UInt32.add_assoc]
  · exact absurd rfl hne

@[simp] theorem LaneSet.toList_lane0 : lane0.toList = [0] := rfl

@[simp] theorem LaneSet.toList_both : both.toList = [0, 1] := rfl

theorem LaneSet.toList_lt (lanes : LaneSet) : lanes.toList.Pairwise (· < ·) :=
  List.Pairwise.filter _ (by decide)

theorem LaneSet.mem_below {lanes : LaneSet} {below above : List UInt8} {lane : UInt8}
    (h : lanes.toList = below ++ lane :: above) (l : UInt8) :
    l ∈ below ↔ l ∈ lanes.toList ∧ l < lane := by
  have hsorted := lanes.toList_lt
  rw [h] at hsorted ⊢
  obtain ⟨-, hafter, hbefore⟩ := List.pairwise_append.mp hsorted
  constructor
  · exact fun hl => ⟨List.mem_append_left _ hl, hbefore l hl lane List.mem_cons_self⟩
  · rintro ⟨hl, hlt⟩
    rcases List.mem_append.mp hl with hl | hl
    · exact hl
    · rcases List.mem_cons.mp hl with rfl | hl
      · exact absurd hlt (UInt8.lt_irrefl _)
      · exact absurd hlt (UInt8.lt_asymm ((List.pairwise_cons.mp hafter).1 l hl))

theorem LaneSet.mem_upTo {lanes : LaneSet} {below above : List UInt8} {lane : UInt8}
    (h : lanes.toList = below ++ lane :: above) (l : UInt8) :
    l ∈ below ++ [lane] ↔ l ∈ lanes.toList ∧ l ≤ lane := by
  rw [List.mem_append, List.mem_singleton, mem_below h, UInt8.le_iff_lt_or_eq]
  constructor
  · rintro (⟨hl, hlt⟩ | rfl)
    · exact ⟨hl, .inl hlt⟩
    · exact ⟨by simp [h], .inr rfl⟩
  · rintro ⟨hl, hlt | heq⟩
    · exact .inl ⟨hl, hlt⟩
    · exact .inr heq

theorem gives_each {ν : Type} {x : ν → Fallible σ PUnit} {l : List ν} {I : List ν → σ → Prop}
    {F : List ν → ν → σ → Prop}
    (hx : ∀ below n above, l = below ++ n :: above → ∀ s, I below s →
      Gives (x n).run s (upon (fun _ => I (below ++ [n])) (F below n))) :
    ∀ (rest done : List ν) {s : σ}, l = done ++ rest → I done s →
      Gives (rest.forM x).run s (upon (fun _ => I l) fun s' =>
        ∃ below n above, l = below ++ n :: above ∧ F below n s')
  | [], done, s, hl, hs => by
    rw [List.append_nil] at hl
    exact hl ▸ hs
  | n :: rest, done, s, hl, hs => by
    refine gives_next (hx done n rest hl s hs) (fun s' hs' => ⟨done, n, rest, hl, hs'⟩)
      fun _ s₁ hs₁ => ?_
    refine gives_each hx rest (done ++ [n]) ?_ hs₁
    rw [hl, List.append_assoc]
    rfl

/-! ## Calls on lanes -/

inductive LaneCall where
  | modify (clear set : UInt8)
  | write (value : UInt8)

namespace LaneCall

variable (call : LaneCall)

def new : LaneCall → UInt8 → UInt8
  | modify clear set, old => (old &&& ~~~clear) ||| set
  | write value, _ => value

def onLane (bus : MessageBus) (h : Host σ) (addr : UInt16) (committed : Bool) (lane : UInt8) :
    Fallible σ Unit :=
  match call with
  | modify clear set => bus.modifyLane h addr clear set committed lane
  | write value => bus.writeByte h lane addr value committed

def run (bus : MessageBus) (h : Host σ) (lanes : LaneSet) (addr : UInt16) (committed : Bool) :
    Fallible σ Unit :=
  match call with
  | modify clear set => bus.modifyLanes h lanes addr clear set committed
  | write value => bus.writeLanes h lanes addr value committed

theorem run_eq (bus : MessageBus) (h : Host σ) (lanes : LaneSet) (addr : UInt16) (committed : Bool) :
    call.run bus h lanes addr committed = lanes.toList.forM (call.onLane bus h addr committed) := by
  cases call <;> rfl

/-- Success means that the byte is there: a write that does not wait for its response may
be mistaken about a lane that is late. -/
def IsSure (committed : Bool) (late : Prop) : Prop :=
  match call with
  | modify .. => True
  | write _ => committed = true ∨ ¬ late

def IsIdle (old : UInt8) : Prop :=
  match call with
  | modify .. => call.new old = old
  | write _ => False

theorem IsSure.mono {call : LaneCall} {committed : Bool} {late late' : Prop}
    (h : call.IsSure committed late) (hlate : late' → late) : call.IsSure committed late' := by
  cases call with
  | modify => trivial
  | write => exact h.imp_right fun honTime h' => honTime (hlate h')

end LaneCall

section
variable {h : Host σ} (phy : LanePhy h) (bus : MessageBus) (lane : UInt8)

structure Apart (idle : Prop) (r r' : Logged σ) : Prop where
  late : ∀ l, phy.isLane l → l ≠ bus.laneOf lane → phy.late r'.world l → phy.late r.world l
  accesses : ∃ new, r'.accesses = new ++ r.accesses ∧ ∀ a ∈ new,
    (a.addr = (bus.laneOf lane).control ∨ a.addr = (bus.laneOf lane).status) ∧
      (idle → a.isStore (bus.laneOf lane).control = false)

variable {phy bus lane} {idle : Prop} {r r' r'' : Logged σ}

theorem Apart.trans (h₁ : Apart phy bus lane idle r r') (h₂ : Apart phy bus lane idle r' r'') :
    Apart phy bus lane idle r r'' := by
  obtain ⟨new, hnew, hlane⟩ := h₁.accesses
  obtain ⟨new', hnew', hlane'⟩ := h₂.accesses
  refine ⟨fun l hl hne hlate => h₁.late l hl hne (h₂.late l hl hne hlate), new' ++ new, ?_, ?_⟩
  · rw [hnew', hnew, List.append_assoc]
  · exact List.forall_mem_append.mpr ⟨hlane', hlane⟩

theorem Apart.mono {idle' : Prop} (h : Apart phy bus lane idle r r') (hidle : idle' → idle) :
    Apart phy bus lane idle' r r' := by
  obtain ⟨new, hnew, hlane⟩ := h.accesses
  exact ⟨h.late, new, hnew, fun a ha => ⟨(hlane a ha).1, fun hi => (hlane a ha).2 (hidle hi)⟩⟩

theorem apart_of_steps (hl : phy.isLane (bus.laneOf lane)) (hs : phy.sound r.world) {k : BusCommand}
    (hidle : idle → k = .read)
    (hsteps : ReflTransGen (LaneStep h.logged (bus.laneOf lane) k) r r') :
    Apart phy bus lane idle r r' := by
  obtain ⟨new, hnew, hlane⟩ := logged_accesses hsteps
  refine ⟨fun l hl' hne => (phy.logged.others_of_steps hl hl' hne hs hsteps).2, new, hnew, ?_⟩
  refine fun a ha => ⟨(hlane a ha).addr_eq, fun hi => ?_⟩
  obtain rfl := hidle hi
  exact (hlane a ha).isStore

end

namespace LaneCall

def stored (call : LaneCall) (b : PhyByte) (m : PhyMemory) : PhyMemory :=
  m.store b (call.new (m.byte b))

section
variable {h : Host σ} (phy : LanePhy h) (bus : MessageBus) (call : LaneCall) (addr : UInt16)
  (lane : UInt8)

/-- The call on a lane from `r`, which has changed the byte of the lane or not. -/
structure Turn (r r' : Logged σ) : Prop where
  passed : MemoryPhy.Passed phy.logged.toMemoryPhy (fun m => m = phy.memory r.world ∨
    m = call.stored ⟨bus.port, lane, addr⟩ (phy.memory r.world)) r r'
  apart : Apart phy bus lane
    (call.IsIdle ((phy.memory r.world).byte ⟨bus.port, lane, addr⟩)) r r'

variable {phy bus addr lane} (hl : phy.isLane (bus.laneOf lane)) (haddr : IsPlain addr)
  {r : Logged σ} (hs : phy.sound r.world)
include hl haddr hs

theorem gives_write (value : UInt8) (committed : Bool) :
    Gives ((write value).onLane bus h.logged addr committed lane).run r
      (upon (fun _ r' => Turn phy bus (write value) addr lane r r' ∧
          ((write value).IsSure committed (phy.late r.world (bus.laneOf lane)) →
            phy.memory r'.world =
              (write value).stored ⟨bus.port, lane, addr⟩ (phy.memory r.world)))
        (Turn phy bus (write value) addr lane r)) := by
  let was := phy.memory r.world
  let now := was.store ⟨bus.port, lane, addr⟩ value
  let sure := (write value).IsSure committed (phy.late r.world (bus.laneOf lane))
  let M (m : PhyMemory) : Prop := m = was ∨ m = now
  -- a write that may be mistaken still writes nothing else
  let N (m : PhyMemory) : Prop := m = now ∨ (¬ sure ∧ m = was)
  have hstore (m : PhyMemory) (hm : M m) : N (m.store ⟨bus.port, lane, addr &&& 0xFFF⟩ value) := by
    refine .inl ?_
    rw [haddr.masked]
    rcases hm with rfl | rfl
    · rfl
    · exact PhyMemory.store_store _ _ _
  have hN (m : PhyMemory) (hm : N m) : M m := hm.symm.imp_left And.right
  have hl' : phy.logged.isLane (bus.laneOf lane) := hl
  have hs' : phy.logged.sound r := hs
  have hwrite : Gives (bus.writeByte h.logged lane addr value committed).run r
      (upon (fun _ r' => MemoryPhy.Passed phy.logged.toMemoryPhy N r r' ∧
          (phy.lane r'.world (bus.laneOf lane)).IsClear)
        (MemoryPhy.Passed phy.logged.toMemoryPhy M r)) := by
    by_cases hsure : sure
    · cases committed with
      | true => exact MemoryPhy.gives_writeByte hl' hstore hN (.inl rfl) hs' (.inl rfl)
      | false =>
        have honTime := hsure.resolve_left Bool.false_ne_true
        exact phy.logged.gives_writeByte_onTime hl' hstore hN hs' (.inl rfl) honTime
    · have hlost (m : PhyMemory) (hm : M m) : N m := hm.symm.imp_right fun hwas => ⟨hsure, hwas⟩
      exact MemoryPhy.gives_writeByte hl' hstore hN (.inr hlost) hs' (.inl rfl)
  have hsteps := (leads_writeByte h.logged bus lane addr value committed).gives r
  have hturn {r' : Logged σ} (hpassed : MemoryPhy.Passed phy.logged.toMemoryPhy M r r')
      (hsteps : ReflTransGen (LaneStep h.logged (bus.laneOf lane) (writeCommand committed)) r r') :
      Turn phy bus (write value) addr lane r r' :=
    ⟨hpassed, apart_of_steps hl hs (fun hidle => hidle.elim) hsteps⟩
  refine (hwrite.both hsteps).imp (fun _ r' hr' => ?_) fun r' hr' => hturn hr'.1 hr'.2
  obtain ⟨⟨hpassed, -⟩, hsteps⟩ := hr'
  exact ⟨hturn (hpassed.mono hN) hsteps, fun hsure =>
    hpassed.memory.resolve_right fun hlost => hlost.1 hsure⟩

theorem gives_modify (hclear : (phy.lane r.world (bus.laneOf lane)).IsClear) (clear set : UInt8)
    (committed : Bool) :
    Gives ((modify clear set).onLane bus h.logged addr committed lane).run r
      (upon (fun _ r' => Turn phy bus (modify clear set) addr lane r r' ∧
          phy.memory r'.world =
            (modify clear set).stored ⟨bus.port, lane, addr⟩ (phy.memory r.world))
        (Turn phy bus (modify clear set) addr lane r)) := by
  let was := phy.memory r.world
  let old := was.byte ⟨bus.port, lane, addr⟩
  let value := (modify clear set).new old
  have hl' : phy.logged.isLane (bus.laneOf lane) := hl
  have hs' : phy.logged.sound r := hs
  have hread : Gives (bus.readByte h.logged lane addr).run r _ :=
    MemoryPhy.gives_readByte (M := (· = was)) hl' hs' rfl
  have honTime : Gives (bus.readByte h.logged lane addr).run r _ :=
    phy.logged.gives_readByte hl' hs'
  have hsteps := (leads_readByte h.logged bus lane addr).gives r
  have hapart {idle : Prop} {r₁ : Logged σ}
      (hsteps : ReflTransGen (LaneStep h.logged (bus.laneOf lane) .read) r r₁) :
      Apart phy bus lane idle r r₁ := apart_of_steps hl hs (fun _ => rfl) hsteps
  refine gives_next ((hread.both honTime).both hsteps)
    (fun r₁ hr₁ => ⟨hr₁.1.1.mono fun _ => .inl, hapart hr₁.2⟩) fun v r₁ hr₁ => ?_
  obtain ⟨⟨⟨⟨hpassed, -⟩, hv⟩, hs₁, honTime⟩, hsteps⟩ := hr₁
  have hmemory : phy.memory r₁.world = was := hpassed.memory
  obtain rfl : v = old := by
    rw [hv hclear, haddr.masked]
    exact (congrArg (PhyMemory.answer · _) hmemory).trans (PhyMemory.answer_plain haddr _ _ _)
  have hnew : (modify clear set).stored ⟨bus.port, lane, addr⟩ was =
    was.store ⟨bus.port, lane, addr⟩ value := rfl
  dsimp only
  split
  · next hdiffers =>
    have hidle : ¬ (modify clear set).IsIdle old := fun hidle => bne_iff_ne.mp hdiffers hidle
    have hwrite := gives_write hl haddr (r := r₁) hs₁ value committed
    have hstored : (write value).stored ⟨bus.port, lane, addr⟩ (phy.memory r₁.world) =
        (modify clear set).stored ⟨bus.port, lane, addr⟩ was := by
      rw [hmemory]
      rfl
    have hturn {r₂ : Logged σ} (hr₂ : Turn phy bus (write value) addr lane r₁ r₂) :
        Turn phy bus (modify clear set) addr lane r r₂ := by
      refine ⟨hpassed.trans (hr₂.passed.mono fun m hm => ?_),
        (hapart hsteps).trans (hr₂.apart.mono fun h => absurd h hidle)⟩
      rw [hstored, hmemory] at hm
      exact hm
    refine hwrite.imp (fun _ r₂ hr₂ => ⟨hturn hr₂.1, ?_⟩) fun r₂ hr₂ => hturn hr₂
    rw [← hstored]
    exact hr₂.2 (.inr honTime)
  -- a byte that stays as it is need not be written
  · next hsame =>
    have hold : value = old := not_not.mp fun hne => hsame (bne_iff_ne.mpr hne)
    refine ⟨⟨hpassed.mono fun _ => .inl, hapart hsteps⟩, ?_⟩
    show phy.memory r₁.world = _
    rw [hmemory, hnew, hold, PhyMemory.store_plain haddr, Function.update_eq_self]

theorem gives_onLane (hclear : (phy.lane r.world (bus.laneOf lane)).IsClear) (call : LaneCall)
    (committed : Bool) :
    Gives (call.onLane bus h.logged addr committed lane).run r
      (upon (fun _ r' => Turn phy bus call addr lane r r' ∧
          (call.IsSure committed (phy.late r.world (bus.laneOf lane)) →
            phy.memory r'.world = call.stored ⟨bus.port, lane, addr⟩ (phy.memory r.world)))
        (Turn phy bus call addr lane r)) := by
  cases call with
  | modify clear set =>
    exact (gives_modify hl haddr hs hclear clear set committed).imp
      (fun _ _ hr' => ⟨hr'.1, fun _ => hr'.2⟩) fun _ => id
  | write value => exact gives_write hl haddr hs value committed

end

/-! ## One lane after the other -/

section
variable {h : Host σ} (phy : LanePhy h) (bus : MessageBus) (call : LaneCall) (addr : UInt16) (s₀ : σ)

/-- A call over lanes that started in `s₀` when those in `done` have had their turn. -/
structure Reached (done : List UInt8) (sure : UInt8 → Prop) (r : Logged σ) : Prop where
  passed : MemoryPhy.Passed phy.toMemoryPhy
    (Rewritten bus.port addr call.new (· ∈ done) sure (phy.memory s₀)) s₀ r.world
  late : ∀ l, phy.isLane l → (∀ lane ∈ done, l ≠ bus.laneOf lane) → phy.late r.world l →
    phy.late s₀ l
  accesses : ∀ a ∈ r.accesses, ∃ lane ∈ done,
    (a.addr = (bus.laneOf lane).control ∨ a.addr = (bus.laneOf lane).status) ∧
      (call.IsIdle ((phy.memory s₀).byte ⟨bus.port, lane, addr⟩) →
        a.isStore (bus.laneOf lane).control = false)

variable {phy bus call addr s₀} {done : List UInt8} {sure : UInt8 → Prop} {r r' : Logged σ}

theorem Reached.start (hs : phy.sound s₀) (hsure : ∀ lane, ¬ sure lane) :
    Reached phy bus call addr s₀ [] sure ⟨s₀, []⟩ where
  passed := ⟨hs, id, fun _ _ => id, .none hsure fun _ => List.not_mem_nil⟩
  late _ _ _ := id
  accesses := nofun

theorem Reached.mono {sure' : UInt8 → Prop} (hr : Reached phy bus call addr s₀ done sure r)
    (hsure : ∀ lane, sure' lane → sure lane) : Reached phy bus call addr s₀ done sure' r :=
  ⟨hr.passed.mono fun _ hm => hm.mono (fun _ => id) hsure, hr.late, hr.accesses⟩

theorem Reached.next (haddr : IsPlain addr) (hr : Reached phy bus call addr s₀ done sure r)
    {lane : UInt8} {S : Prop} (hlane : lane ∉ done) (hsub : ∀ l, sure l → l ∈ done)
    (hturn : Turn phy bus call addr lane r r')
    (hsure : S → phy.memory r'.world = call.stored ⟨bus.port, lane, addr⟩ (phy.memory r.world)) :
    Reached phy bus call addr s₀ (done ++ [lane]) (fun l => sure l ∨ l = lane ∧ S) r' where
  passed := by
    have hnext := hr.passed.memory.next haddr hlane hsub hturn.passed.memory hsure
    have hturned : MemoryPhy.Passed phy.toMemoryPhy
        (Rewritten bus.port addr call.new (fun l => l ∈ done ∨ l = lane)
          (fun l => sure l ∨ l = lane ∧ S) (phy.memory s₀)) r.world r'.world :=
      ⟨hturn.passed.sound, hturn.passed.prompt, hturn.passed.clear, hnext⟩
    exact (hr.passed.trans hturned).mono fun _ hm => hm.mono (fun l => by simp) fun _ => id
  late l hl hne hlate := by
    obtain ⟨hdone, hlast⟩ := List.forall_mem_append.mp hne
    exact hr.late l hl hdone (hturn.apart.late l hl (hlast lane (List.mem_singleton_self lane)) hlate)
  accesses a ha := by
    obtain ⟨new, hnew, hplaces⟩ := hturn.apart.accesses
    have hbefore : (phy.memory r.world).byte ⟨bus.port, lane, addr⟩ =
        (phy.memory s₀).byte ⟨bus.port, lane, addr⟩ := hr.passed.memory.other _ fun _ _ => hlane
    rw [hbefore] at hplaces
    rw [hnew] at ha
    rcases List.mem_append.mp ha with ha | ha
    · exact ⟨lane, by simp, hplaces a ha⟩
    · obtain ⟨l, hl, hplace⟩ := hr.accesses a ha
      exact ⟨l, List.mem_append_left _ hl, hplace⟩

theorem gives_lanes (hport : ∀ lane, lane = 0 ∨ lane = 1 → phy.isLane (bus.laneOf lane))
    (hs : phy.sound s₀) (haddr : IsPlain addr) (lanes : LaneSet) (committed : Bool)
    (hclear : ∀ lane ∈ lanes.toList, (phy.lane s₀ (bus.laneOf lane)).IsClear) :
    let sure (lane : UInt8) := call.IsSure committed (phy.late s₀ (bus.laneOf lane))
    Gives (call.run bus h.logged lanes addr committed).run ⟨s₀, []⟩
      (upon (fun _ => Reached phy bus call addr s₀ lanes.toList fun l => l ∈ lanes.toList ∧ sure l)
        fun r => ∃ below lane above, lanes.toList = below ++ lane :: above ∧
          Reached phy bus call addr s₀ (below ++ [lane]) (fun l => l ∈ below ∧ sure l) r) := by
  intro sure
  rw [run_eq]
  refine gives_each (I := fun done => Reached phy bus call addr s₀ done fun l => l ∈ done ∧ sure l)
    (F := fun below lane => Reached phy bus call addr s₀ (below ++ [lane])
      fun l => l ∈ below ∧ sure l) ?_ lanes.toList [] rfl
    (.start hs fun _ hsure => List.not_mem_nil hsure.1)
  intro below lane above hsplit r hr
  have hmem : lane ∈ lanes.toList := by simp [hsplit]
  have hl := hport lane (LaneSet.zero_or_one hmem)
  have hlane : lane ∉ below := fun hl =>
    UInt8.lt_irrefl _ ((LaneSet.mem_below hsplit lane).mp hl).2
  have hsub : ∀ l, l ∈ below ∧ sure l → l ∈ below := fun _ => And.left
  have hnow := hr.passed.clear _ hl (hclear lane hmem)
  have hlate : phy.late r.world (bus.laneOf lane) → phy.late s₀ (bus.laneOf lane) := by
    refine hr.late _ hl fun l hl heq => hlane ?_
    rw [show lane = l from congrArg BusLane.lane heq]
    exact hl
  refine (gives_onLane hl haddr hr.passed.sound hnow call committed).imp (fun _ r' hr' => ?_) fun r' hr' => ?_
  · refine (hr.next haddr hlane hsub hr'.1 hr'.2).mono fun l hl => ?_
    obtain ⟨hl, hsure⟩ := hl
    rcases List.mem_append.mp hl with hl | hl
    · exact .inl ⟨hl, hsure⟩
    · obtain rfl := List.mem_singleton.mp hl
      exact .inr ⟨rfl, hsure.mono hlate⟩
  · exact (hr.next haddr hlane hsub hr' False.elim).mono fun _ => .inl

end

theorem run_logged (call : LaneCall) (h : Host σ) (bus : MessageBus) (lanes : LaneSet)
    (addr : UInt16) (committed : Bool) (s : σ) :
    let ended := (call.run bus h.logged lanes addr committed).run ⟨s, []⟩
    (call.run bus h lanes addr committed).run s = (ended.1, ended.2.world) := by
  cases call with
  | modify clear set =>
    exact (parallel_logged h).modifyLanes bus lanes addr clear set committed ⟨s, []⟩
  | write value => exact (parallel_logged h).writeLanes bus lanes addr value committed ⟨s, []⟩

theorem gives_run {h : Host σ} {phy : LanePhy h} {bus : MessageBus} {call : LaneCall}
    {addr : UInt16} {s : σ} (hport : ∀ lane, lane = 0 ∨ lane = 1 → phy.isLane (bus.laneOf lane))
    (hs : phy.sound s) (haddr : IsPlain addr) (lanes : LaneSet) (committed : Bool)
    (hclear : ∀ lane ∈ lanes.toList, (phy.lane s (bus.laneOf lane)).IsClear) :
    let sure (lane : UInt8) := call.IsSure committed (phy.late s (bus.laneOf lane))
    Gives (call.run bus h lanes addr committed).run s
      (upon (fun _ s' => MemoryPhy.Passed phy.toMemoryPhy
          (Rewritten bus.port addr call.new (· ∈ lanes.toList)
            (fun lane => lane ∈ lanes.toList ∧ sure lane) (phy.memory s)) s s')
        fun s' => MemoryPhy.Passed phy.toMemoryPhy
          (Rewritten bus.port addr call.new (· ∈ lanes.toList) (fun _ => False) (phy.memory s)) s s') := by
  intro sure
  refine Gives.carried (call.run_logged h bus lanes addr committed s)
    ((gives_lanes hport hs haddr lanes committed hclear).imp (fun _ _ hr => hr.passed) fun r hr => ?_)
  obtain ⟨below, lane, above, hsplit, hr⟩ := hr
  refine hr.passed.mono fun _ hm => hm.mono (fun l hl => ?_) fun _ => False.elim
  exact ((LaneSet.mem_upTo hsplit l).mp hl).1

end LaneCall

namespace LaneCall

variable {h : Host σ} {phy : LanePhy h} {bus : MessageBus} {call : LaneCall} {addr : UInt16} {s : σ}
  {done : List UInt8} {sure : UInt8 → Prop} {r : Logged σ}

theorem Reached.isStore (hr : Reached phy bus call addr s done sure r)
    (hdone : ∀ lane ∈ done, lane = 0 ∨ lane = 1) {lane : UInt8} (hlane : lane = 0 ∨ lane = 1)
    (hidle : call.IsIdle ((phy.memory s).byte ⟨bus.port, lane, addr⟩)) {a : Access}
    (ha : a ∈ r.accesses) : a.isStore (bus.laneOf lane).control = false := by
  obtain ⟨l, hl, hplace, hstore⟩ := hr.accesses a ha
  by_cases hsame : lane = l
  · subst hsame
    exact hstore hidle
  · exact Access.isStore_of_ne (addr_ne_control bus.port (hdone l hl) hlane hsame hplace)

end LaneCall

end Retune
