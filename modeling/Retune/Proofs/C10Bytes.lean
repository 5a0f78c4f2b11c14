import Retune.Proofs.BusDividers
import Retune.Proofs.LaneBytes

/-!
# The bytes a C10 PLL writes

A C10 PLL is programmed by changing bytes on lanes, one after the other. What has become
of a byte can be read off the list of these changes: all of them have been made if
programming succeeds, and some of the first ones if it fails. Only the first change on a lane
can be mistaken about what it changes, if a response was left there.
-/

namespace Retune

open Relation

variable {σ : Type}

/-! ## Changes in a row -/

/-- A committed change of a byte on some lanes. -/
structure ByteEdit where
  call : LaneCall
  lanes : LaneSet
  addr : UInt16

namespace ByteEdit

def run (e : ByteEdit) (bus : MessageBus) (h : Host σ) : Fallible σ Unit :=
  e.call.run bus h e.lanes e.addr true

def apply (port : UInt32) (b : PhyByte) (old : UInt8) (e : ByteEdit) : UInt8 :=
  if b.port = port ∧ b.addr = e.addr ∧ b.lane ∈ e.lanes.toList then e.call.new old else old

structure Applied (port : UInt32) (edits : List ByteEdit) (m m' : PhyMemory) : Prop where
  byte : ∀ b, m'.byte b = edits.foldl (apply port b) (m.byte b)
  word : m'.word = m.word
  window : m'.window = m.window

/-- Each byte is as the first few edits leave it. -/
structure Begun (port : UInt32) (edits : List ByteEdit) (m m' : PhyMemory) : Prop where
  byte : ∀ b, ∃ done, done <+: edits ∧ m'.byte b = done.foldl (apply port b) (m.byte b)
  word : m'.word = m.word
  window : m'.window = m.window

variable {port : UInt32} {b : PhyByte} {e : ByteEdit} {edits edits' : List ByteEdit}
  {m m₁ m₂ : PhyMemory} {sure : UInt8 → Prop}

theorem Applied.begun (h : Applied port edits m m₁) : Begun port edits m m₁ :=
  ⟨fun b => ⟨edits, List.prefix_rfl, h.byte b⟩, h.word, h.window⟩

theorem Begun.mono (h : Begun port edits m m₁) (hbegins : edits <+: edits') :
    Begun port edits' m m₁ := by
  refine ⟨fun b => ?_, h.word, h.window⟩
  obtain ⟨done, hdone, hb⟩ := h.byte b
  exact ⟨done, hdone.trans hbegins, hb⟩

theorem Applied.next (h : Applied port edits m m₁)
    (hnext : Rewritten port e.addr e.call.new (· ∈ e.lanes.toList)
      (fun lane => lane ∈ e.lanes.toList ∧ sure lane) m₁ m₂) (hsure : ∀ lane, sure lane) :
    Applied port (edits ++ [e]) m m₂ := by
  refine ⟨fun b => ?_, hnext.word.trans h.word, hnext.window.trans h.window⟩
  rw [List.foldl_append, ← h.byte b]
  show m₂.byte b = apply port b (m₁.byte b) e
  unfold apply
  split
  · next hb =>
    obtain ⟨rfl, haddr, hlane⟩ := hb
    have hnew := hnext.new b.lane ⟨hlane, hsure _⟩
    rw [← haddr] at hnew
    exact hnew
  · next hb => exact hnext.other b fun hport haddr hlane => hb ⟨hport, haddr, hlane⟩

theorem Applied.nextBegun (h : Applied port edits m m₁)
    (hnext : Rewritten port e.addr e.call.new (· ∈ e.lanes.toList) sure m₁ m₂) :
    Begun port (edits ++ [e]) m m₂ := by
  refine ⟨fun b => ?_, hnext.word.trans h.word, hnext.window.trans h.window⟩
  have hsame (hb : m₂.byte b = m₁.byte b) : ∃ done, done <+: edits ++ [e] ∧
      m₂.byte b = done.foldl (apply port b) (m.byte b) :=
    ⟨edits, List.prefix_append _ _, hb.trans (h.byte b)⟩
  by_cases hb : b.port = port ∧ b.addr = e.addr ∧ b.lane ∈ e.lanes.toList
  · obtain ⟨hport, haddr, hlane⟩ := hb
    obtain ⟨bport, lane, addr⟩ := b
    obtain rfl : bport = port := hport
    obtain rfl : addr = e.addr := haddr
    rcases hnext.either lane hlane with hold | hnew
    · exact hsame hold
    · refine ⟨edits ++ [e], List.prefix_rfl, ?_⟩
      rw [List.foldl_append, ← h.byte]
      show _ = apply bport _ _ e
      unfold apply
      rw [if_pos ⟨rfl, rfl, hlane⟩]
      exact hnew
  · exact hsame (hnext.other b fun hport haddr hlane => hb ⟨hport, haddr, hlane⟩)

theorem foldl_or {value : UInt8} : ∀ {edits : List ByteEdit} {old : UInt8},
    (∀ e ∈ edits, ∀ x, apply port b x e = x ∨ apply port b x e = value) →
      edits.foldl (apply port b) old = old ∨ edits.foldl (apply port b) old = value
  | [], _, _ => .inl rfl
  | e :: edits, old, h => by
    obtain ⟨hfirst, hrest⟩ := List.forall_mem_cons.mp h
    rw [List.foldl_cons]
    rcases hfirst old with heq | heq <;> rw [heq]
    · exact foldl_or hrest
    · exact .inr ((foldl_or hrest).elim id id)

theorem gives_edits {h : Host σ} {phy : LanePhy h} {bus : MessageBus}
    (hport : ∀ lane, lane = 0 ∨ lane = 1 → phy.isLane (bus.laneOf lane)) {s : σ} (hs : phy.sound s)
    (hclear : ∀ lane, lane = 0 ∨ lane = 1 → (phy.lane s (bus.laneOf lane)).IsClear)
    (hplain : ∀ e ∈ edits, IsPlain e.addr) :
    Gives (edits.forM fun e => e.run bus h).run s
      (upon (fun _ s' => MemoryPhy.Passed phy.toMemoryPhy
          (Applied bus.port edits (phy.memory s)) s s')
        fun s' => MemoryPhy.Passed phy.toMemoryPhy (Begun bus.port edits (phy.memory s)) s s') := by
  have hstart : MemoryPhy.Passed phy.toMemoryPhy (Applied bus.port [] (phy.memory s)) s s :=
    ⟨hs, id, fun _ _ => id, fun _ => rfl, rfl, rfl⟩
  refine (gives_each (l := edits)
    (I := fun done => MemoryPhy.Passed phy.toMemoryPhy (Applied bus.port done (phy.memory s)) s)
    (F := fun below e =>
      MemoryPhy.Passed phy.toMemoryPhy (Begun bus.port (below ++ [e]) (phy.memory s)) s)
    ?_ edits [] rfl hstart).imp (fun _ _ => id) fun s' hs' => ?_
  -- an edit that fails has changed its byte on some of the lanes
  · intro below e above hsplit s₁ hs₁
    have hmem : e ∈ edits := by simp [hsplit]
    have hclear₁ (lane : UInt8) (hlane : lane ∈ e.lanes.toList) :
        (phy.lane s₁ (bus.laneOf lane)).IsClear :=
      hs₁.clear _ (hport lane (LaneSet.zero_or_one hlane)) (hclear lane (LaneSet.zero_or_one hlane))
    have hedit : Gives (e.run bus h).run s₁ _ :=
      LaneCall.gives_run hport hs₁.sound (hplain e hmem) e.lanes true hclear₁
    have hsure (lane : UInt8) : e.call.IsSure true (phy.late s₁ (bus.laneOf lane)) := by
      cases e.call with
      | modify => trivial
      | write => exact .inl rfl
    refine hedit.imp (fun _ s₂ hs₂ => ?_) fun s₂ hs₂ => ?_
    · exact hs₁.trans (hs₂.mono fun _ hm => hs₁.memory.next hm hsure)
    · exact hs₁.trans (hs₂.mono fun _ hm => hs₁.memory.nextBegun hm)
  · obtain ⟨below, e, above, hsplit, hs'⟩ := hs'
    refine hs'.mono fun _ hm => hm.mono ⟨above, ?_⟩
    rw [hsplit, List.append_assoc]
    rfl

end ByteEdit

/-! ## Programming -/

/-- Nothing has changed but some bytes. -/
structure Outside (bytes : List PhyByte) (m m' : PhyMemory) : Prop where
  byte : ∀ b ∉ bytes, m'.byte b = m.byte b
  word : m'.word = m.word
  window : m'.window = m.window

theorem Outside.store {bytes : List PhyByte} {m m' : PhyMemory} (h : Outside bytes m m')
    {port : UInt32} {lane : UInt8} {addr : UInt16} (haddr : IsPlain addr)
    (hmem : ⟨port, lane, addr⟩ ∈ bytes) (value : UInt8) :
    Outside bytes m (m'.store ⟨port, lane, addr⟩ value) := by
  rw [PhyMemory.store_plain haddr]
  refine ⟨fun b hb => ?_, h.word, h.window⟩
  have hne : b ≠ ⟨port, lane, addr⟩ := fun heq => hb (heq ▸ hmem)
  exact (Function.update_of_ne hne _ _).trans (h.byte b hb)

namespace C10Pll

/-- What programming changes once the file has been opened. -/
def edits (p : C10Pll) (v : Version) : List ByteEdit :=
  [⟨.modify widthMask 0, .both, widthAddr⟩, ⟨.modify 0 updateConfig, .both, controlAddr⟩,
    ⟨.write ((p.bytes.get quotLow).value v), .lane0, (p.bytes.get quotLow).addr.toUInt16⟩,
    ⟨.write ((p.bytes.get quotHigh).value v), .lane0, (p.bytes.get quotHigh).addr.toUInt16⟩,
    ⟨.modify 0 (masterLane ||| updateConfig), .lane0, controlAddr⟩]

theorem writeLanes_lane0 (bus : MessageBus) (h : Host σ) (addr : UInt16) (value : UInt8)
    (committed : Bool) :
    bus.writeLanes h .lane0 addr value committed = bus.writeByte h 0 addr value committed :=
  bind_pure_unit

theorem program_eq (p : C10Pll) (h : Host σ) (v : Version) :
    p.program h v = (do
      p.bus.modifyLanes h .both controlAddr 0 busAccess true
      (p.edits v).forM fun e => e.run p.bus h) := by
  have hlast (x : Fallible σ PUnit) : x = (x >>= fun _ => pure PUnit.unit) := bind_pure_unit.symm
  unfold program
  rw [hlast (p.bus.modifyLanes h .lane0 controlAddr 0 (masterLane ||| updateConfig) true),
    ← writeLanes_lane0, ← writeLanes_lane0]
  rfl

def controlByte (p : C10Pll) (lane : UInt8) : PhyByte := ⟨p.bus.port, lane, controlAddr⟩

def widthByte (p : C10Pll) (lane : UInt8) : PhyByte := ⟨p.bus.port, lane, widthAddr⟩

def controlBytes (p : C10Pll) : List PhyByte := [p.controlByte 0, p.controlByte 1]

def written (p : C10Pll) : List PhyByte :=
  [p.lowByte, p.highByte, p.controlByte 0, p.controlByte 1, p.widthByte 0, p.widthByte 1]

/-- The file has been opened on the lanes on which no response was left. -/
structure Opened (p : C10Pll) (clear : UInt8 → Prop) (m m' : PhyMemory) : Prop
    extends Outside p.controlBytes m m' where
  control : ∀ lane, lane = 0 ∨ lane = 1 → clear lane →
    m'.byte (p.controlByte lane) = m.byte (p.controlByte lane) ||| busAccess

/-- Programming a version has got so far, or further. -/
structure Between (p : C10Pll) (v : Version) (m m' : PhyMemory) : Prop
    extends Outside p.written m m' where
  low : m'.byte p.lowByte = m.byte p.lowByte ∨ m'.byte p.lowByte = (p.bytes.get quotLow).value v
  high : m'.byte p.highByte = m.byte p.highByte ∨
    m'.byte p.highByte = (p.bytes.get quotHigh).value v

/-- Programming a version has done all it is to do. The control byte of a lane is known if
no response was left there. -/
structure Programmed (p : C10Pll) (v : Version) (clear : UInt8 → Prop) (m m' : PhyMemory) : Prop
    extends Outside p.written m m' where
  low : m'.byte p.lowByte = (p.bytes.get quotLow).value v
  high : m'.byte p.highByte = (p.bytes.get quotHigh).value v
  control0 : clear 0 → m'.byte (p.controlByte 0) = m.byte (p.controlByte 0) ||| 7
  control1 : clear 1 → m'.byte (p.controlByte 1) = m.byte (p.controlByte 1) ||| 5
  width : ∀ lane, lane = 0 ∨ lane = 1 →
    m'.byte (p.widthByte lane) = m.byte (p.widthByte lane) &&& ~~~3

section
variable {p : C10Pll} {v : Version} {m m₁ m' : PhyMemory} {clear : UInt8 → Prop}

theorem lowByte_ne : p.lowByte.addr ≠ controlAddr := by
  show (0xC0B : UInt16) ≠ 0xC70
  decide

theorem highByte_ne : p.highByte.addr ≠ controlAddr := by
  show (0xC0C : UInt16) ≠ 0xC70
  decide

theorem widthByte_ne {lane : UInt8} : (p.widthByte lane).addr ≠ controlAddr := by
  show (0xD02 : UInt16) ≠ 0xC70
  decide

theorem Programmed.between (h : p.Programmed v clear m m₁) : p.Between v m m₁ :=
  ⟨h.toOutside, .inr h.low, .inr h.high⟩

theorem Opened.same (h : p.Opened clear m m₁) {b : PhyByte} (haddr : b.addr ≠ controlAddr) :
    m₁.byte b = m.byte b := by
  refine h.byte b fun hmem => haddr ?_
  rcases List.mem_pair.mp hmem with rfl | rfl <;> rfl

theorem Opened.unwritten (h : p.Opened clear m m₁) {b : PhyByte} (hb : b ∉ p.written) :
    m₁.byte b = m.byte b := by
  refine h.byte b fun hmem => hb ?_
  rcases List.mem_pair.mp hmem with rfl | rfl <;> simp [written]

theorem Opened.between (h : p.Opened clear m m₁) (v : Version) : p.Between v m m₁ :=
  ⟨⟨fun _ => h.unwritten, h.word, h.window⟩, .inl (h.same lowByte_ne), .inl (h.same highByte_ne)⟩

variable (hp : p.Placed)
include hp

theorem edits_placed : p.edits v =
    [⟨.modify 3 0, .both, 0xD02⟩, ⟨.modify 0 1, .both, 0xC70⟩,
      ⟨.write ((p.bytes.get quotLow).value v), .lane0, 0xC0B⟩,
      ⟨.write ((p.bytes.get quotHigh).value v), .lane0, 0xC0C⟩, ⟨.modify 0 3, .lane0, 0xC70⟩] := by
  unfold edits
  rw [hp.low, hp.high]
  rfl

theorem plain_of_mem {e : ByteEdit} (he : e ∈ p.edits v) : IsPlain e.addr := by
  rw [edits_placed hp] at he
  simp only [List.mem_cons, List.not_mem_nil, or_false] at he
  rcases he with rfl | rfl | rfl | rfl | rfl <;> refine ⟨?_, .inr ?_⟩ <;> dsimp only <;> decide

theorem mem_written {e : ByteEdit} (he : e ∈ p.edits v) {lane : UInt8} (hlane : lane ∈ e.lanes.toList) :
    ⟨p.bus.port, lane, e.addr⟩ ∈ p.written := by
  have hlane0 (hlane : lane ∈ LaneSet.lane0.toList) : lane = 0 := List.mem_singleton.mp hlane
  rw [edits_placed hp] at he
  simp only [List.mem_cons, List.not_mem_nil, or_false] at he
  rcases he with rfl | rfl | rfl | rfl | rfl
  · rcases LaneSet.zero_or_one hlane with rfl | rfl <;> simp [written, widthByte, widthAddr]
  · rcases LaneSet.zero_or_one hlane with rfl | rfl <;> simp [written, controlByte, controlAddr]
  · simp [written, lowByte, hlane0 hlane]
  · simp [written, highByte, hlane0 hlane]
  · simp [written, controlByte, controlAddr, hlane0 hlane]

theorem apply_other {b : PhyByte} (hb : b ∉ p.written) {e : ByteEdit} (he : e ∈ p.edits v) (x : UInt8) :
    ByteEdit.apply p.bus.port b x e = x := by
  refine if_neg ?_
  rintro ⟨hport, haddr, hlane⟩
  have hmem := mem_written hp he hlane
  rw [← hport, ← haddr] at hmem
  exact hb hmem

theorem between_of_begun (hopened : p.Opened clear m m₁)
    (h : ByteEdit.Begun p.bus.port (p.edits v) m₁ m') : p.Between v m m' := by
  have hor {b : PhyByte} {value : UInt8} (hb : ∀ e ∈ p.edits v, ∀ x,
      ByteEdit.apply p.bus.port b x e = x ∨ ByteEdit.apply p.bus.port b x e = value) :
      m'.byte b = m₁.byte b ∨ m'.byte b = value := by
    obtain ⟨done, hdone, hbyte⟩ := h.byte b
    rw [hbyte]
    exact ByteEdit.foldl_or fun e he => hb e (hdone.subset he)
  refine ⟨⟨fun b hb => ?_, h.word.trans hopened.word, h.window.trans hopened.window⟩, ?_, ?_⟩
  · have hsame := (hor fun e he x => .inl (apply_other hp hb he x)).elim id id
    exact hsame.trans (hopened.unwritten hb)
  · rw [← hopened.same lowByte_ne]
    refine hor ?_
    rw [edits_placed hp]
    simp [ByteEdit.apply, lowByte, LaneCall.new]
  · rw [← hopened.same highByte_ne]
    refine hor ?_
    rw [edits_placed hp]
    simp [ByteEdit.apply, highByte, LaneCall.new]

theorem programmed_of_applied (hopened : p.Opened clear m m₁)
    (h : ByteEdit.Applied p.bus.port (p.edits v) m₁ m') : p.Programmed v clear m m' := by
  have hbyte := h.byte
  rw [edits_placed hp] at hbyte
  refine ⟨(between_of_begun hp hopened h.begun).toOutside, ?_, ?_, fun hclear => ?_,
    fun hclear => ?_, fun lane hlane => ?_⟩
  · rw [hbyte]
    simp [ByteEdit.apply, lowByte, LaneCall.new]
  · rw [hbyte]
    simp [ByteEdit.apply, highByte, LaneCall.new]
  · have hbits : (busAccess ||| (1 ||| 3) : UInt8) = 7 := rfl
    rw [hbyte, hopened.control 0 (.inl rfl) hclear]
    simp [ByteEdit.apply, controlByte, controlAddr, LaneCall.new, UInt8.or_assoc, hbits]
  · have hbits : (busAccess ||| 1 : UInt8) = 5 := rfl
    rw [hbyte, hopened.control 1 (.inr rfl) hclear]
    simp [ByteEdit.apply, controlByte, controlAddr, LaneCall.new, UInt8.or_assoc, hbits]
  · rw [hbyte, hopened.same widthByte_ne]
    rcases hlane with rfl | rfl <;> simp [ByteEdit.apply, widthByte, widthAddr, LaneCall.new]

end

theorem plain_controlAddr : IsPlain controlAddr := ⟨by decide, .inr (by decide)⟩

section
variable {h : Host σ} {phy : MemoryPhy h} {p : C10Pll}
  (hport : ∀ lane, lane = 0 ∨ lane = 1 → phy.isLane (p.bus.laneOf lane)) {s : σ} (hs : phy.sound s)
include hport hs

theorem gives_control {lane : UInt8} (hlane : lane = 0 ∨ lane = 1)
    (hclear : (phy.lane s (p.bus.laneOf lane)).IsClear) :
    Gives (p.bus.modifyLane h controlAddr 0 busAccess true lane).run s
      (upon (fun _ s' => (phy.memory s').byte (p.controlByte lane) =
          (phy.memory s).byte (p.controlByte lane) ||| busAccess)
        fun _ => True) := by
  let old := (phy.memory s).byte (p.controlByte lane)
  have hl := hport lane hlane
  have hbits : (old &&& ~~~0) ||| busAccess = old ||| busAccess := by simp
  refine gives_next (MemoryPhy.gives_readByte (M := fun m => m.byte (p.controlByte lane) = old) hl hs
    rfl) (fun _ _ => trivial) fun v s₁ hread => ?_
  obtain ⟨⟨hs₁, -⟩, hv⟩ := hread
  obtain rfl : v = old :=
    (hv hclear).trans ((PhyMemory.answer_plain plain_controlAddr _ _ _).trans hs₁.memory)
  dsimp only
  split
  · have hwrite : Gives (p.bus.writeByte h lane controlAddr ((old &&& ~~~0) ||| busAccess) true).run
        s₁ _ :=
      MemoryPhy.gives_writeByte (M := fun _ => True)
        (N := fun m => m.byte (p.controlByte lane) = (old &&& ~~~0) ||| busAccess) hl
        (fun m _ => Function.update_self _ _ _) (fun _ _ => trivial) (.inl rfl) hs₁.sound trivial
    exact hwrite.imp (fun _ s₂ hs₂ => hs₂.1.memory.trans hbits) fun _ _ => trivial
  · next hsame =>
    have hsame : (old &&& ~~~0) ||| busAccess = old := not_not.mp fun hne => hsame (bne_iff_ne.mpr hne)
    exact hs₁.memory.trans (hsame.symm.trans hbits)

theorem gives_openLane {lane other : UInt8} (hlane : lane = 0 ∨ lane = 1) (hne : other ≠ lane) :
    Gives (p.bus.modifyLane h controlAddr 0 busAccess true lane).run s
      (upon (fun _ s' => phy.Passed (fun m => m.byte (p.controlByte other) =
            (phy.memory s).byte (p.controlByte other)) s s' ∧
          ((phy.lane s (p.bus.laneOf lane)).IsClear → (phy.memory s').byte (p.controlByte lane) =
            (phy.memory s).byte (p.controlByte lane) ||| busAccess))
        fun _ => True) := by
  have hbyte : p.controlByte other ≠ p.controlByte lane := fun heq => hne (congrArg PhyByte.lane heq)
  have hkept : Gives (p.bus.modifyLane h controlAddr 0 busAccess true lane).run s _ :=
    MemoryPhy.gives_modifyLane (M := fun m => m.byte (p.controlByte other) =
      (phy.memory s).byte (p.controlByte other)) hport hlane
      (fun m v hm => (Function.update_of_ne hbyte _ _).trans hm) hs rfl
  by_cases hclear : (phy.lane s (p.bus.laneOf lane)).IsClear
  · exact (hkept.both (gives_control hport hs hlane hclear)).imp
      (fun _ _ hs' => ⟨hs'.1.1, fun _ => hs'.2⟩) fun _ _ => trivial
  · exact hkept.imp (fun _ _ hs' => ⟨hs'.1, fun h => absurd h hclear⟩) fun _ _ => trivial

theorem gives_openLanes :
    Gives (p.bus.modifyLanes h .both controlAddr 0 busAccess true).run s
      (upon (fun _ s' => ∀ lane, lane = 0 ∨ lane = 1 → (phy.lane s (p.bus.laneOf lane)).IsClear →
          (phy.memory s').byte (p.controlByte lane) =
            (phy.memory s).byte (p.controlByte lane) ||| busAccess)
        fun _ => True) := by
  refine gives_next (gives_openLane hport hs (.inl rfl) (by decide : (1 : UInt8) ≠ 0))
    (fun _ => id) fun _ s₁ hs₁ => ?_
  obtain ⟨hs₁, hset₀⟩ := hs₁
  refine gives_next (gives_openLane hport hs₁.sound (.inr rfl) (by decide : (0 : UInt8) ≠ 1))
    (fun _ => id) fun _ s₂ hs₂ => ?_
  obtain ⟨hs₂, hset₁⟩ := hs₂
  rintro lane (rfl | rfl) hclear
  · exact hs₂.memory.trans (hset₀ hclear)
  · have hclear₁ := hs₁.clear _ (hport 1 (.inr rfl)) hclear
    exact (hset₁ hclear₁).trans (congrArg (· ||| busAccess) hs₁.memory)

theorem gives_opened :
    Gives (p.bus.modifyLanes h .both controlAddr 0 busAccess true).run s
      (upon (fun _ s' =>
          phy.Passed (p.Opened (fun lane => (phy.lane s (p.bus.laneOf lane)).IsClear) (phy.memory s))
            s s' ∧ ∀ lane, lane = 0 ∨ lane = 1 → (phy.lane s' (p.bus.laneOf lane)).IsClear)
        fun s' => phy.Passed (p.Opened (fun _ => False) (phy.memory s)) s s') := by
  have hmem (lane : UInt8) (hlane : lane = 0 ∨ lane = 1) :
      ⟨p.bus.port, lane, controlAddr⟩ ∈ p.controlBytes := by
    rcases hlane with rfl | rfl <;> simp [controlBytes, controlByte]
  have houtside : Gives (p.bus.modifyLanes h .both controlAddr 0 busAccess true).run s _ :=
    MemoryPhy.gives_modifyLanes (M := Outside p.controlBytes (phy.memory s)) hport
      (fun lane hlane m v hm => hm.store plain_controlAddr (hmem lane hlane) v) hs
      ⟨fun _ _ => rfl, rfl, rfl⟩
  refine (houtside.both (gives_openLanes hport hs)).imp (fun _ s' hs' => ?_)
    fun s' hs' => hs'.1.mono fun _ hm => ⟨hm, fun _ _ => False.elim⟩
  obtain ⟨⟨hs', hclear⟩, hset⟩ := hs'
  refine ⟨⟨hs'.sound, hs'.prompt, hs'.clear, hs'.memory, hset⟩, fun lane hlane => hclear lane ?_⟩
  rcases hlane with rfl | rfl <;> simp

end

theorem gives_bytes {h : Host σ} {phy : LanePhy h} {p : C10Pll}
    (hport : ∀ lane, lane = 0 ∨ lane = 1 → phy.isLane (p.bus.laneOf lane)) (hp : p.Placed) {s : σ}
    (hs : phy.sound s) (v : Version) :
    Gives (p.program h v).run s
      (upon (fun _ s' => MemoryPhy.Passed phy.toMemoryPhy
          (p.Programmed v (fun lane => (phy.lane s (p.bus.laneOf lane)).IsClear) (phy.memory s)) s s')
        fun s' => MemoryPhy.Passed phy.toMemoryPhy (p.Between v (phy.memory s)) s s') := by
  rw [program_eq]
  refine gives_next (gives_opened hport hs) (fun s' hs' => hs'.mono fun _ hm => hm.between v)
    fun _ s₁ hs₁ => ?_
  obtain ⟨hs₁, hclear⟩ := hs₁
  have hlater := ByteEdit.gives_edits hport hs₁.sound hclear fun e => plain_of_mem hp (v := v)
  refine hlater.imp (fun _ s' hs' => hs₁.trans (hs'.mono fun _ hm => ?_))
    fun s' hs' => hs₁.trans (hs'.mono fun _ hm => ?_)
  · exact programmed_of_applied hp hs₁.memory hm
  · exact between_of_begun hp hs₁.memory hm

/-! ## Restoring -/

theorem of_asFound {q : C10Pll} : ∀ {p : Pll}, p.asFound = .c10 q → q.Placed → ∃ p' : C10Pll,
    p = .c10 p' ∧ p'.bus = q.bus ∧ p'.Placed ∧
      ∀ i : Fin 20, (p'.bytes.get i).found = (q.bytes.get i).found
  | .combo _, hp, _ | .dkl _, hp, _ | .c20 _, hp, _ | .dpMn _, hp, _ => nomatch hp
  | .c10 p, hp, hq => by
    obtain rfl := Pll.c10.inj hp
    refine ⟨p, rfl, rfl, (Pll.placed_asFound p).mp hq, fun i => ?_⟩
    rw [Pll.get_map_asFound]
    rfl

theorem written_eq {p q : C10Pll} (h : p.bus = q.bus) : p.written = q.written := by
  unfold written lowByte highByte controlByte widthByte
  rw [h]

/-- What holds after any calls since `s₀`, when `q` had been captured. -/
structure Confined {h : Host σ} (phy : LanePhy h) (q : C10Pll) (s₀ : σ) (c : Pll × σ) : Prop where
  retuned : PllCall.Retuned (.c10 q) c.1
  passed : MemoryPhy.Passed phy.toMemoryPhy
    (fun m => ∀ b ∉ q.written, m.byte b = (phy.memory s₀).byte b) s₀ c.2

section
variable {h : Host σ} {phy : LanePhy h} {q : C10Pll} {s₀ : σ}
  (hport : ∀ lane, lane = 0 ∨ lane = 1 → phy.isLane (q.bus.laneOf lane)) (hq : q.Placed)
include hport hq

theorem Confined.programs {c : Pll × σ} (hc : Confined phy q s₀ c) : ∃ p : C10Pll,
    c.1 = .c10 p ∧ p.bus = q.bus ∧ (∀ i : Fin 20, (p.bytes.get i).found = (q.bytes.get i).found) ∧
      ∀ v, Gives (p.program h v).run c.2
        (upon (fun _ s => MemoryPhy.Passed phy.toMemoryPhy (p.Programmed v
            (fun lane => (phy.lane c.2 (p.bus.laneOf lane)).IsClear) (phy.memory c.2)) c.2 s)
          fun s => MemoryPhy.Passed phy.toMemoryPhy (p.Between v (phy.memory c.2)) c.2 s) := by
  obtain ⟨p, hp, hbus, hplaced, hfound⟩ := of_asFound hc.retuned.found hq
  rw [← hbus] at hport
  exact ⟨p, hp, hbus, hfound, fun v => gives_bytes hport hplaced hc.passed.sound v⟩

theorem Confined.leave {c : Pll × σ} (hc : Confined phy q s₀ c) (call : PllCall) :
    Confined phy q s₀ (call.leave h c) := by
  refine ⟨hc.retuned.leave call, ?_⟩
  cases call with
  | retune target =>
    exact hc.passed.same (PllCall.retune_same phy.toMemoryPhy target hc.passed.sound)
  | program v =>
    obtain ⟨p, hp, hbus, -, hgives⟩ := hc.programs hport hq
    obtain ⟨_, s⟩ := c
    obtain rfl : _ = Pll.c10 p := hp
    have hbetween := (hgives v).either (fun _ _ hs' => hs'.mono fun _ hm => hm.between) fun _ => id
    refine (hc.passed.trans hbetween).mono fun m hm b hb => ?_
    rw [hm.byte b (written_eq hbus ▸ hb)]
    exact hc.passed.memory b hb

theorem Confined.run : ∀ (calls : List PllCall) {c : Pll × σ}, Confined phy q s₀ c →
    Confined phy q s₀ (calls.foldl (PllCall.leave h) c)
  | [], _, hc => hc
  | call :: calls, _, hc => Confined.run calls (hc.leave hport hq call)

end

/-- The slots of a captured file but for its first byte, which may be a response that was
left before. -/
def FileFrom (m : PhyMemory) (p q : C10Pll) : Prop :=
  ∀ i ≠ fracByte, (q.bytes.get i).ReadFrom
    (fun addr value => value = m.answer ⟨p.bus.port, 0, addr &&& 0xFFF⟩) (p.bytes.get i).addr

theorem captures_file {h : Host σ} (phy : LatePhy h) {p : C10Pll} (hl : phy.isLane (p.bus.laneOf 0))
    {s : σ} (hs : phy.sound s) :
    Reaches (fun _ _ => True) (capture h).run p s
      (ending (fun _ q s' => (SameFile p.bus p q ∧
          MemoryPhy.Passed phy.toMemoryPhy (· = phy.memory s) s s') ∧ FileFrom (phy.memory s) p q)
        fun _ _ _ => True) := by
  have hbytes : Reaches (fun _ _ => True) ((List.finRange 20).forM (captureByte h)).run
      { p with captured := false } s
      (ending (fun _ q s' => (SameFile p.bus p q ∧
          MemoryPhy.Passed phy.toMemoryPhy (· = phy.memory s) s s') ∧ FileFrom (phy.memory s) p q)
        fun _ _ _ => True) := by
    rw [List.finRange_succ]
    refine reaches_andThen ((captures_byte (phy.reader hl s) p { p with captured := false }
      ⟨rfl, fun _ => rfl⟩ ⟨hs, id, fun _ _ => id, rfl⟩ 0).mono ?_)
    rintro (e | u) q s₁ hr
    · trivial
    obtain ⟨⟨hq, hs₁, -, hclear, -⟩, -⟩ := hr
    -- whatever the first read has taken, the lane is clear after it
    refine (captures_bytes (phy.reader hl s₁) p _ hq ⟨hs₁.sound, id, fun _ _ => id, rfl⟩).mono ?_
    rintro (e | u) q' s₂ hr
    · trivial
    obtain ⟨⟨hq', hs₂⟩, hread⟩ := hr
    have hmemory : phy.memory s₁ = phy.memory s := hs₁.memory
    refine ⟨⟨hq', hs₁.trans (hs₂.mono fun _ hm => hm.trans hmemory)⟩, fun i hi => ?_⟩
    obtain ⟨j, rfl⟩ := Fin.exists_succ_eq.mpr hi
    obtain ⟨value, hvalue, hslot⟩ := hread j.succ (List.mem_map_of_mem (List.mem_finRange j))
    exact ⟨value, (hvalue hclear).trans (congrArg (PhyMemory.answer · _) hmemory), hslot⟩
  refine reaches_andThen (reaches_change anywhere (reaches_andThen (hbytes.mono ?_)))
  rintro (e | u) q s' hr
  · exact hr
  · exact reaches_change anywhere ⟨⟨⟨hr.1.1.bus, hr.1.1.addr⟩, hr.1.2⟩, hr.2⟩

theorem found_bytes {p q : C10Pll} (h : SameFile p.bus p q) (hp : p.Placed)
    {m : PhyMemory} (hread : FileFrom m p q) :
    (q.bytes.get quotLow).found = m.byte q.lowByte ∧
      (q.bytes.get quotHigh).found = m.byte q.highByte := by
  obtain ⟨low, hlow, hslotLow⟩ := hread quotLow (by decide)
  obtain ⟨high, hhigh, hslotHigh⟩ := hread quotHigh (by decide)
  rw [hp.low] at hlow
  rw [hp.high] at hhigh
  unfold lowByte highByte
  rw [hslotLow, hslotHigh, hlow, hhigh, h.bus]
  exact ⟨rfl, rfl⟩

theorem file_not_written (p : C10Pll) (i : Fin 20) (hlow : i ≠ quotLow) (hhigh : i ≠ quotHigh) :
    ⟨p.bus.port, 0, byteAddr i⟩ ∉ p.written := by
  have happart : ∀ i : Fin 20, i ≠ quotLow → i ≠ quotHigh → byteAddr i ≠ 0xC0B ∧
      byteAddr i ≠ 0xC0C ∧ byteAddr i ≠ controlAddr ∧ byteAddr i ≠ widthAddr := by decide
  obtain ⟨h1, h2, h3, h4⟩ := happart i hlow hhigh
  simp [written, lowByte, highByte, controlByte, widthByte, h1, h2, h3, h4]

theorem Confined.restores {h : Host σ} {phy : LanePhy h} {q : C10Pll} {s₀ : σ}
    (hport : ∀ lane, lane = 0 ∨ lane = 1 → phy.isLane (q.bus.laneOf lane)) (hq : q.Placed)
    (hfound : (q.bytes.get quotLow).found = (phy.memory s₀).byte q.lowByte ∧
      (q.bytes.get quotHigh).found = (phy.memory s₀).byte q.highByte)
    {c : Pll × σ} (hc : Confined phy q s₀ c)
    (hok : (PllCall.program .found).answer h c = .ok ()) (i : Fin 20) :
    (phy.memory ((PllCall.program .found).leave h c).2).byte ⟨q.bus.port, 0, byteAddr i⟩ =
      (phy.memory s₀).byte ⟨q.bus.port, 0, byteAddr i⟩ := by
  obtain ⟨p, hp, hbus, hsame, hgives⟩ := hc.programs hport hq
  obtain ⟨_, s⟩ := c
  obtain rfl : _ = Pll.c10 p := hp
  have hprogrammed := ((hgives .found).ok hok).memory
  unfold lowByte highByte at hfound
  rw [← hbus] at hfound ⊢
  by_cases hlow : i = quotLow
  · subst hlow
    exact (hprogrammed.low.trans (hsame quotLow)).trans hfound.1
  · by_cases hhigh : i = quotHigh
    · subst hhigh
      exact (hprogrammed.high.trans (hsame quotHigh)).trans hfound.2
    · have hnot := p.file_not_written i hlow hhigh
      exact (hprogrammed.byte _ hnot).trans (hc.passed.memory _ (written_eq hbus ▸ hnot))

end C10Pll

/-- Whatever becomes of its transactions, programming a C10 PLL changes no byte but those it
is to change, and each byte of the quotient is the previous or the chosen one. If it succeeds
these bytes are as they are to be, but for the control byte of a lane on which a response was
left. After a capture, and any calls since, the file is back as it was found when programming
what was found succeeds. -/
theorem c10_bytes_programmed {h : Host σ} (phy : LanePhy h) (p : C10Pll)
    (hport : ∀ lane, lane = 0 ∨ lane = 1 → phy.isLane (p.bus.laneOf lane)) (hp : p.Placed) (s : σ)
    (hs : phy.sound s) :
    let m := phy.memory s
    let captured := Pll.capture h (.c10 p) s
    (∀ v : Version,
      let ended := (p.program h v).run s
      (ended.1 = .ok () →
        p.Programmed v (fun lane => (phy.lane s (p.bus.laneOf lane)).IsClear) m (phy.memory ended.2)) ∧
        p.Between v m (phy.memory ended.2)) ∧
      (captured.1.1 = .ok () → ∀ calls : List PllCall,
        let left := calls.foldl (PllCall.leave h) (captured.1.2, captured.2)
        let restored := (PllCall.program .found).leave h left
        (PllCall.program .found).answer h left = .ok () → ∀ i : Fin 20,
          (phy.memory restored.2).byte ⟨p.bus.port, 0, C10Pll.byteAddr i⟩ =
            m.byte ⟨p.bus.port, 0, C10Pll.byteAddr i⟩) := by
  intro m captured
  constructor
  · intro v ended
    have hgives := C10Pll.gives_bytes hport hp hs v
    exact ⟨fun hok => (hgives.ok hok).memory,
      hgives.either (fun _ _ hs' => hs'.memory.between) fun _ hs' => hs'.memory⟩
  intro hok calls left restored hrestored i
  have hcaptured := (C10Pll.captures_file phy.toLatePhy (hport 0 (.inl rfl)) hs).post
  rcases hrun : (C10Pll.capture h).run p s with ⟨⟨r, q⟩, s₁⟩
  rw [hrun] at hcaptured
  have hended : captured = ((r, .c10 q), s₁) := by
    show Pll.capture h (.c10 p) s = _
    unfold Pll.capture
    dsimp only
    rw [show C10Pll.capture h p s = ((r, q), s₁) from hrun]
  obtain rfl : r = .ok () := by
    rw [hended] at hok
    exact hok
  obtain ⟨⟨hfile, hpassed⟩, hread⟩ := hcaptured
  have hbytes := C10Pll.found_bytes hfile hp hread
  rw [← hfile.bus] at hport ⊢
  have hfound : (Pll.c10 q).asFound = .c10 q := Pll.asFound_capture hended
  have hstart : C10Pll.Confined phy q s (.c10 q, s₁) := by
    refine ⟨⟨hfound, Pll.inFields_of_asFound hfound⟩, hpassed.mono fun m' hm' b _ => ?_⟩
    rw [hm']
  have hleft : C10Pll.Confined phy q s left := by
    show C10Pll.Confined phy q s (calls.foldl (PllCall.leave h) (captured.1.2, captured.2))
    rw [hended]
    exact C10Pll.Confined.run hport (hfile.placed hp) calls hstart
  exact hleft.restores hport (hfile.placed hp) hbytes hrestored i

/-- A PHY with a quotient, of which transactions are answered wrongly, late or not at all
while it is captured and while it is programmed. -/
def Played.ofFile : Played :=
  untouched 1 ((Store.empty.set ⟨0, 0, 0xC0B⟩ 0x34).set ⟨0, 0, 0xC0C⟩ 0x12) 0
    ([.swap, .delay 3] ++ List.replicate 19 .ok ++ [.refuse 0x8000, .hang])

theorem c10_bytes_programmed_faulty :
    let m := Played.ofFile.hardware.memory
    (∃ s, (C10Pll.program Played.host (.ofBus (.ofPort 0)) .found).run Played.ofFile = (.ok (), s) ∧
      C10Pll.Programmed (.ofBus (.ofPort 0)) .found (fun _ => True) m s.hardware.memory) ∧
    ∃ q s, Pll.capture Played.host (.c10 (.ofBus (.ofPort 0))) Played.ofFile = ((.ok (), q), s) ∧
      let left := [PllCall.retune 300000.0, .program .proposed].foldl (PllCall.leave Played.host) (q, s)
      (PllCall.program .found).answer Played.host left = .ok () ∧ ∀ i : Fin 20,
        ((PllCall.program .found).leave Played.host left).2.hardware.memory.byte
          ⟨0, 0, C10Pll.byteAddr i⟩ = m.byte ⟨0, 0, C10Pll.byteAddr i⟩ := by
  intro m
  have hs : Played.ofFile.hardware.Settles 1 :=
    Played.settles_untouched 1 _ (by simp [BusWord.errorSet])
  have hclear : ∀ lane, lane = 0 ∨ lane = 1 →
      ((Played.lanePhy 1 (by decide)).lane Played.ofFile ((MessageBus.ofPort 0).laneOf lane)).IsClear := by
    unfold LaneState.IsClear
    rintro lane (rfl | rfl) <;> decide +kernel
  obtain ⟨hprograms, hcaptures⟩ := c10_bytes_programmed (Played.lanePhy 1 (by decide))
    (.ofBus (.ofPort 0)) (fun lane hlane => ⟨Nat.one_pos, hlane⟩) ⟨rfl, rfl⟩ Played.ofFile hs
  have hended : ((C10Pll.program Played.host (.ofBus (.ofPort 0)) .found).run Played.ofFile).1 =
      .ok () := by
    decide +kernel
  have hok : (Pll.capture Played.host (.c10 (.ofBus (.ofPort 0))) Played.ofFile).1.1 = .ok () := by
    decide +kernel
  have hrestored : (PllCall.program .found).answer Played.host
      ([PllCall.retune 300000.0, .program .proposed].foldl (PllCall.leave Played.host)
        ((Pll.capture Played.host (.c10 (.ofBus (.ofPort 0))) Played.ofFile).1.2,
          (Pll.capture Played.host (.c10 (.ofBus (.ofPort 0))) Played.ofFile).2)) = .ok () := by
    decide +kernel
  have hfound := hprograms .found
  dsimp only at hfound hcaptures
  constructor
  · rcases hrun : (C10Pll.program Played.host (.ofBus (.ofPort 0)) .found).run Played.ofFile with ⟨r, s⟩
    rw [hrun] at hended hfound
    obtain rfl : r = .ok () := hended
    have hprogrammed := hfound.1 rfl
    exact ⟨s, rfl, { hprogrammed with
      control0 := fun _ => hprogrammed.control0 (hclear 0 (.inl rfl))
      control1 := fun _ => hprogrammed.control1 (hclear 1 (.inr rfl)) }⟩
  · rcases hrun : Pll.capture Played.host (.c10 (.ofBus (.ofPort 0))) Played.ofFile with ⟨⟨r, q⟩, s⟩
    rw [hrun] at hok hrestored hcaptures
    obtain rfl : r = .ok () := hok
    exact ⟨q, s, rfl, hrestored, hcaptures rfl _ hrestored⟩

/-- A response that is left from before is taken for that of the first read, which is left
pending. So the bits of the bus access are not set. -/
theorem c10_bytes_left_response :
    let start :=
      (Played.untouched 1 .empty 0 [.hang]).withResponse ((MessageBus.ofPort 0).laneOf 0) 0xFF
    let ended := (C10Pll.program Played.host (.ofBus (.ofPort 0)) .found).run start
    start.hardware.Settles 1 ∧ ended.1 = .ok () ∧ ended.2.hardware.byte ⟨0, 0, 0xC70⟩ = 3 ∧
      ¬ C10Pll.Programmed (.ofBus (.ofPort 0)) .found (fun _ => True) start.hardware.memory
        ended.2.hardware.memory := by
  dsimp only
  refine ⟨Played.settles_withResponse ?_ 0xFF, by decide +kernel, by decide +kernel,
    fun hprogrammed => ?_⟩
  · exact Played.settles_untouched 1 .empty (by simp)
  · exact absurd (hprogrammed.control0 trivial) (by decide +kernel)

end Retune
