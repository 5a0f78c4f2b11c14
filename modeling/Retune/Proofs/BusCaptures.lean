import Retune.Proofs.Flags
import Retune.Proofs.Responses

/-!
# Captures over the message bus

What a capture of a C10 or C20 PLL leaves, in terms of what reads of lane 0
answer. A C20 capture finds out first where its words lie.
-/

namespace Retune

open Relation

variable {σ : Type}

/-- What is relied on of reads over a bus. Bytes are read in a state that is `ready`,
which is also `good` afterwards if the read succeeds; then words can be read as well.
What a failed read leaves is `missed` or `lost`. -/
structure Reader (h : Host σ) (bus : MessageBus) where
  ready : σ → Prop
  good : σ → Prop
  missed : σ → Prop
  lost : σ → Prop
  byte : UInt16 → UInt8 → Prop
  word : UInt16 → UInt16 → Prop
  lost_of_missed : ∀ {s}, missed s → lost s
  readByte : ∀ {s} addr, ready s →
    Gives (bus.readByte h 0 addr).run s (upon (fun v s => (ready s ∧ good s) ∧ byte addr v) missed)
  readWord : ∀ {s} addr, good s →
    Gives (bus.readWord h .lane0 addr).run s (upon (fun w s => good s ∧ word addr w) lost)
  reportReady : ∀ {s} n, ready s → ready (h.report n s).2
  reportGood : ∀ {s} n, good s → good (h.report n s).2

def Reader.any (h : Host σ) (bus : MessageBus) : Reader h bus where
  ready _ := True
  good _ := True
  missed _ := True
  lost _ := True
  byte _ _ := True
  word _ _ := True
  lost_of_missed := id
  readByte {s} addr _ := by
    unfold Gives
    cases ((bus.readByte h 0 addr).run s).1 <;> simp [upon]
  readWord {s} addr _ := by
    unfold Gives
    cases ((bus.readWord h .lane0 addr).run s).1 <;> simp [upon]
  reportReady _ _ := trivial
  reportGood _ _ := trivial

/-- Both versions of the slot are a value that was read from its address. -/
def Slot.ReadFrom {α : Type} (value : UInt16 → α → Prop) (addr : UInt32) (x : Slot α) : Prop :=
  ∃ v, value addr.toUInt16 v ∧ x = ⟨addr, v, v⟩

section
variable {γ ν α : Type} {T : γ × σ → γ × σ → Prop}

theorem reaches_given {x : Fallible σ α} {c : γ} {s : σ} {P : α → σ → Prop} {R : σ → Prop}
    {Q : Except Failure α → γ → σ → Prop} (hx : Gives x.run s (upon P R))
    (hP : ∀ a s, P a s → Q (.ok a) c s) (hR : ∀ e s, R s → Q (.error e) c s) :
    Reaches (fun _ _ => True) (liftM x : Holding γ σ α).run c s Q := by
  refine reaches_try anywhere ?_
  unfold Gives at hx
  rcases hrun : x.run s with ⟨e | a, s'⟩ <;> rw [hrun] at hx
  · exact hR e s' hx
  · exact hP a s' hx

theorem reaches_every {f : ν → Holding γ σ PUnit} {I E : γ → σ → Prop} {P : ν → γ → Prop} :
    ∀ {l : List ν} {c : γ} {s : σ},
      (∀ n c s, I c s → Reaches T (f n).run c s
        (ending (fun _ c' s' => I c' s' ∧ P n c' ∧ ∀ m, P m c → P m c') fun _ => E)) →
      I c s → Reaches T (l.forM f).run c s
        (ending (fun _ c' s' => I c' s' ∧ (∀ n ∈ l, P n c') ∧ ∀ m, P m c → P m c') fun _ => E)
  | [], _, _, _, hc => reaches_ok ⟨hc, nofun, fun _ => id⟩
  | n :: l, c, s, hf, hc => by
    show Reaches T (f n >>= fun _ => l.forM f).run c s _
    refine reaches_andThen ((hf n c s hc).mono ?_)
    intro r c₁ s₁ hfirst
    cases r with
    | error e => exact hfirst
    | ok u =>
      obtain ⟨hc₁, hn, hkeeps⟩ := hfirst
      refine (reaches_every (l := l) hf hc₁).mono ?_
      intro r c₂ s₂ hrest
      cases r with
      | error e => exact hrest
      | ok u =>
        obtain ⟨hc₂, hl, hkeeps'⟩ := hrest
        exact ⟨hc₂, List.forall_mem_cons.mpr ⟨hkeeps' n hn, hl⟩, fun m hm => hkeeps' m (hkeeps m hm)⟩

end

theorem get_set {α : Type} {n i : Nat} (v : Vector α n) (hi : i < n) (x : α) (j : Fin n) :
    (v.set i x hi).get j = if i = j then x else v.get j := v.getElem_set hi j.isLt

variable {h : Host σ} {bus : MessageBus} (reader : Reader h bus) {s : σ}

/-! ## C10 -/

namespace C10Pll

/-- The PLL on its bus, with slots for the same bytes as another. -/
structure SameFile (bus : MessageBus) (p q : C10Pll) : Prop where
  bus : q.bus = bus
  addr : ∀ i : Fin 20, (q.bytes.get i).addr = (p.bytes.get i).addr

theorem captures_byte (p q : C10Pll) (hq : SameFile bus p q) (hs : reader.ready s) (i : Fin 20) :
    Reaches (fun _ _ => True) (captureByte h i).run q s
      (ending (fun _ q' s' => (SameFile bus p q' ∧ reader.ready s' ∧ reader.good s') ∧
          (q'.bytes.get i).ReadFrom reader.byte (p.bytes.get i).addr ∧
            ∀ j : Fin 20, (q.bytes.get j).ReadFrom reader.byte (p.bytes.get j).addr →
              (q'.bytes.get j).ReadFrom reader.byte (p.bytes.get j).addr)
        fun _ q' s' => SameFile bus p q' ∧ reader.missed s') := by
  obtain rfl := hq.bus
  refine reaches_andThen (reaches_current (reaches_andThen (reaches_given (reader.readByte _ hs) ?_ ?_)))
  · intro value s₁ hread
    obtain ⟨⟨hready, hgood⟩, hvalue⟩ := hread
    have hfound : ((q.bytes.get i).capture value).ReadFrom reader.byte (p.bytes.get i).addr := by
      rw [← hq.addr i]
      exact ⟨value, hvalue, rfl⟩
    refine reaches_andThen (reaches_replace anywhere (reaches_call anywhere ?_))
    refine ⟨⟨⟨rfl, fun j => ?_⟩, reader.reportReady _ hready, reader.reportGood _ hgood⟩, ?_,
      fun j hj => ?_⟩
    · rw [get_set]
      split
      · next heq => rw [← Fin.ext heq]; exact hq.addr i
      · exact hq.addr j
    · rw [get_set, if_pos rfl]
      exact hfound
    · rw [get_set]
      split
      · next heq => rw [← Fin.ext heq]; exact hfound
      · exact hj
  · exact fun e s₁ hmissed => ⟨hq, hmissed⟩

theorem captures_bytes (p : C10Pll) (l : List (Fin 20)) {q : C10Pll} (hq : SameFile bus p q)
    (hs : reader.ready s) :
    Reaches (fun _ _ => True) (l.forM (captureByte h)).run q s
      (ending (fun _ q' s' => (SameFile bus p q' ∧ reader.ready s') ∧
          ∀ i ∈ l, (q'.bytes.get i).ReadFrom reader.byte (p.bytes.get i).addr)
        fun _ q' s' => SameFile bus p q' ∧ reader.missed s') := by
  refine (reaches_every (I := fun q s => SameFile bus p q ∧ reader.ready s)
    (E := fun q s => SameFile bus p q ∧ reader.missed s)
    (P := fun i q => (q.bytes.get i).ReadFrom reader.byte (p.bytes.get i).addr) ?_ ⟨hq, hs⟩).mono ?_
  · rintro i q s ⟨hq, hs⟩
    refine (captures_byte reader p q hq hs i).mono ?_
    rintro (e | u) q' s' hr
    · exact hr
    · exact ⟨⟨hr.1.1, hr.1.2.1⟩, hr.2⟩
  · rintro (e | u) q' s' hr
    · exact hr
    · exact ⟨hr.1, hr.2.1⟩

theorem captures (p : C10Pll) (hp : p.bus = bus) (hs : reader.ready s) :
    Reaches (fun _ _ => True) (capture h).run p s
      (ending (fun _ q s' => (SameFile bus p q ∧ reader.ready s') ∧
          ∀ i : Fin 20, (q.bytes.get i).ReadFrom reader.byte (p.bytes.get i).addr)
        fun _ q s' => SameFile bus p q ∧ reader.missed s') := by
  refine reaches_andThen (reaches_change anywhere (reaches_andThen
    ((captures_bytes reader p _ (q := { p with captured := false }) ⟨hp, fun _ => rfl⟩ hs).mono ?_)))
  rintro (e | u) q s' hr
  · exact hr
  obtain ⟨⟨hq, hready⟩, hread⟩ := hr
  refine reaches_change anywhere ⟨⟨⟨hq.bus, hq.addr⟩, hready⟩, fun i => ?_⟩
  exact hread i (List.mem_finRange i)

end C10Pll

/-! ## C20 -/

namespace C20Pll

/-- Context and block are those that were read, and every word is from where they
say it lies. The quotient and the remainder in use are not with the others. -/
structure LaidOut (byte : UInt16 → UInt8 → Prop) (word : UInt16 → UInt16 → Prop) (p : C20Pll) :
    Prop where
  context : ∃ rate, byte serdesRateAddr rate ∧ p.contextB = (rate &&& 1 != 0)
  block : p.block = if usesBlockB.isSet (p.tx.get 0).found.toUInt32 then .b else .a
  tx : ∀ i : Fin 3, (p.tx.get i).ReadFrom word (txAddr p.contextB i)
  cmn : ∀ i : Fin 4, (p.cmn.get i).ReadFrom word (cmnAddr p.contextB i)
  mpll : ∀ i : Fin 10, i ≠ 8 → i ≠ 9 →
    (p.mpll.get i).ReadFrom word (mpllAddr p.block p.contextB i)
  quotient : p.quotient.ReadFrom word p.block.fractionAddrs.1
  remainder : p.remainder.ReadFrom word p.block.fractionAddrs.2

theorem captures_word (slot : C20Pll → Slot UInt16) (put : Slot UInt16 → C20Pll → C20Pll)
    (hslot : ∀ x p, slot (put x p) = x)
    (hput : ∀ x y p, put x (put y p) = put x p) (hbus : ∀ x p, (put x p).bus = p.bus)
    (addr : UInt32) (p : C20Pll) (hp : p.bus = bus) (hs : reader.good s) :
    Reaches (fun _ _ => True) (captureWord h slot put addr).run p s
      (ending (fun _ q s' => reader.good s' ∧ ∃ x, x.ReadFrom reader.word addr ∧ q = put x p)
        fun _ q s' => q.bus = bus ∧ reader.lost s') := by
  have hmoved : (put { slot p with addr } p).bus = bus := (hbus _ p).trans hp
  refine reaches_andThen (reaches_change anywhere (reaches_andThen (reaches_current ?_)))
  subst hmoved
  refine reaches_andThen (reaches_given (reader.readWord _ hs) ?_ ?_)
  · intro word s₁ hread
    obtain ⟨hgood, hword⟩ := hread
    refine reaches_change anywhere ⟨hgood, ⟨addr, word, word⟩, ⟨word, hword, rfl⟩, ?_⟩
    rw [hslot, hput]
    rfl
  · exact fun e s₁ hlost => ⟨rfl, hlost⟩

theorem captures_words {n : Nat} {I : C20Pll → Prop} (vec : C20Pll → Vector (Slot UInt16) n)
    (withVec : Vector (Slot UInt16) n → C20Pll → C20Pll) (hvec : ∀ v p, vec (withVec v p) = v)
    (hwith : ∀ v w p, withVec v (withVec w p) = withVec v p)
    (hbus : ∀ v p, (withVec v p).bus = p.bus) (hI : ∀ v p, I p → I (withVec v p))
    (addr : Fin n → UInt32) {p : C20Pll} (hp : p.bus = bus) (hIp : I p) (hs : reader.good s) :
    Reaches (fun _ _ => True)
      ((List.finRange n).forM fun i => captureWord h (fun p => (vec p)[i])
        (fun x p => withVec ((vec p).set i x) p) (addr i)).run p s
      (ending (fun _ q s' => (q.bus = bus ∧ I q ∧ reader.good s') ∧
          ∀ i : Fin n, (vec q)[i].ReadFrom reader.word (addr i))
        fun _ q s' => q.bus = bus ∧ reader.lost s') := by
  refine (reaches_every (I := fun q s => q.bus = bus ∧ I q ∧ reader.good s)
    (E := fun q s => q.bus = bus ∧ reader.lost s)
    (P := fun i q => (vec q)[i].ReadFrom reader.word (addr i)) ?_ ⟨hp, hIp, hs⟩).mono ?_
  · rintro i q s₁ ⟨hq, hIq, hs₁⟩
    refine (captures_word reader _ _ (by simp [hvec]) (by simp [hvec, hwith]) (by simp [hbus])
      (addr i) q hq hs₁).mono ?_
    rintro (e | u) q' s' hr
    · exact hr
    · obtain ⟨hgood, x, hx, rfl⟩ := hr
      refine ⟨⟨(hbus _ q).trans hq, hI _ q hIq, hgood⟩, ?_, fun j hj => ?_⟩
      · simpa [hvec] using hx
      · simp only [hvec, Fin.getElem_fin, Vector.getElem_set]
        split
        · next heq => rw [← Fin.ext heq]; exact hx
        · exact hj
  · rintro (e | u) q s' hr
    · exact hr
    · exact ⟨hr.1, fun i => hr.2.1 i (List.mem_finRange i)⟩

theorem captures (p : C20Pll) (hp : p.bus = bus) (hs : reader.ready s) :
    Reaches (fun _ _ => True) (capture h).run p s
      (ending (fun _ q s' => (q.bus = bus ∧ reader.good s') ∧ q.LaidOut reader.byte reader.word)
        fun _ q s' => q.bus = bus ∧ reader.lost s') := by
  obtain rfl := hp
  refine reaches_andThen (reaches_change anywhere (reaches_andThen (reaches_current ?_)))
  refine reaches_andThen (reaches_given (reader.readByte _ hs) ?_ fun e s₁ hmissed =>
    ⟨rfl, reader.lost_of_missed hmissed⟩)
  rintro rate s₁ ⟨⟨-, hs₁⟩, hrate⟩
  -- the byte decides on the context, and later the first tx word on the block
  let contextB := rate &&& 1 != 0
  refine reaches_andThen (reaches_change anywhere (reaches_andThen ((captures_words reader tx
    (I := fun q => q.contextB = contextB) (fun tx q => { q with tx }) (fun _ _ => rfl)
    (fun _ _ _ => rfl) (fun _ _ => rfl) (fun _ _ => id) (txAddr contextB)
    (p := { p with captured := false, contextB }) rfl rfl hs₁).mono ?_)))
  rintro (e | u) p₂ s₂ hr
  · exact hr
  obtain ⟨⟨hbus₂, hcontext₂, hs₂⟩, htx₂⟩ := hr
  refine reaches_andThen ((captures_words reader cmn
    (I := fun q => q.contextB = contextB ∧ q.tx = p₂.tx) (fun cmn q => { q with cmn })
    (fun _ _ => rfl) (fun _ _ _ => rfl) (fun _ _ => rfl) (fun _ _ => id) (cmnAddr contextB) hbus₂
    ⟨hcontext₂, rfl⟩ hs₂).mono ?_)
  rintro (e | u) p₃ s₃ hr
  · exact hr
  obtain ⟨⟨hbus₃, ⟨hcontext₃, htx₃⟩, hs₃⟩, hcmn₃⟩ := hr
  let block := if usesBlockB.isSet p₃.tx[0].found.toUInt32 then Mpll.b else .a
  refine reaches_andThen (reaches_current (reaches_andThen (reaches_change anywhere
    (reaches_andThen ((captures_words reader mpll
      (I := fun q => q.contextB = contextB ∧ q.tx = p₃.tx ∧ q.cmn = p₃.cmn ∧ q.block = block)
      (fun mpll q => { q with mpll }) (fun _ _ => rfl) (fun _ _ _ => rfl) (fun _ _ => rfl)
      (fun _ _ => id) (mpllAddr block contextB) (p := { p₃ with block }) hbus₃
      ⟨hcontext₃, rfl, rfl, rfl⟩ hs₃).mono ?_)))))
  rintro (e | u) p₄ s₄ hr
  · exact hr
  obtain ⟨⟨hbus₄, ⟨hcontext₄, htx₄, hcmn₄, hblock₄⟩, hs₄⟩, hmpll₄⟩ := hr
  -- the words in use replace two that have been read from the block
  have hplace (i : Fin 10) (addr : UInt32) {q : C20Pll} (hq : q.bus = p.bus) {s : σ}
      (hs : reader.good s) := captures_word reader (fun q => q.mpll[i])
    (fun x q => { q with mpll := q.mpll.set i x }) (by simp) (by simp) (fun _ _ => rfl) addr q hq hs
  refine reaches_andThen ((hplace 8 block.fractionAddrs.1 hbus₄ hs₄).mono ?_)
  rintro (e | u) p₅ s₅ hr
  · exact hr
  obtain ⟨hs₅, quot, hquot, rfl⟩ := hr
  refine reaches_andThen ((hplace 9 block.fractionAddrs.2
    (q := { p₄ with mpll := p₄.mpll.set 8 quot }) hbus₄ hs₅).mono ?_)
  rintro (e | u) p₆ s₆ hr
  · exact hr
  obtain ⟨hs₆, rem, hrem, rfl⟩ := hr
  refine reaches_andThen (reaches_current (reaches_andThen (reaches_replace anywhere
    (reaches_call anywhere ⟨⟨hbus₄, reader.reportGood _ hs₆⟩, ?_⟩))))
  have htx (i : Fin 3) : (p₄.tx.get i).ReadFrom reader.word (txAddr p₄.contextB i) := by
    rw [htx₄, htx₃, hcontext₄]
    exact htx₂ i
  have hcmn (i : Fin 4) : (p₄.cmn.get i).ReadFrom reader.word (cmnAddr p₄.contextB i) := by
    rw [hcmn₄, hcontext₄]
    exact hcmn₃ i
  have hblock : p₄.block = if usesBlockB.isSet (p₄.tx.get 0).found.toUInt32 then .b else .a := by
    rw [hblock₄, htx₄]
    rfl
  rw [← hblock₄] at hquot hrem hmpll₄
  rw [← hcontext₄] at hmpll₄
  have hother (i : Fin 10) (h8 : i ≠ 8) (h9 : i ≠ 9) :
      ((p₄.mpll.set 8 quot).set 9 rem).get i = p₄.mpll.get i := by
    rw [get_set, if_neg fun heq => h9 (Fin.ext heq.symm), get_set,
      if_neg fun heq => h8 (Fin.ext heq.symm)]
  refine ⟨⟨rate, hrate, hcontext₄⟩, hblock, htx, hcmn, fun i h8 h9 => ?_, ?_, ?_⟩
  · show Slot.ReadFrom _ _ (((p₄.mpll.set 8 quot).set 9 rem).get i)
    rw [hother i h8 h9]
    exact hmpll₄ i
  · simpa [quotient, Vector.getElem_set] using hquot
  · simpa [remainder] using hrem

end C20Pll

end Retune
