import Retune.Proofs.BenchFile
import Retune.Proofs.BusCaptures
import Retune.Proofs.Words

/-!
# Divider updates

However often a PLL is retuned after a capture, its proposal differs from what was
found in the divider fields only. A target that is turned down changes nothing.
-/

namespace Retune

variable {σ : Type}

/-! ## Fields of a word -/

namespace Field

theorem set_and (f : Field) (word v keep : UInt32) (hkeep : f.mask &&& keep = 0) :
    f.set word v &&& keep = word &&& keep := by
  have hothers : ~~~f.mask &&& keep = keep := by
    apply UInt32.toBitVec_inj.mp
    have hbits := congrArg UInt32.toBitVec hkeep
    simp only [UInt32.toBitVec_and, UInt32.toBitVec_not] at hbits ⊢
    ext i hi
    have hbit := congrArg (fun w => w[i]) hbits
    simp only [BitVec.getElem_and, BitVec.getElem_not] at hbit ⊢
    cases hmask : f.mask.toBitVec[i] <;> simp_all
  have hvalue : (v &&& f.top) <<< f.low &&& keep = 0 := by
    rw [UInt32.shiftLeft_and, UInt32.and_assoc]
    show v <<< f.low &&& (f.mask &&& keep) = 0
    rw [hkeep, UInt32.and_zero]
  unfold set
  rw [or_and_each, UInt32.and_assoc, hothers, hvalue, UInt32.or_zero]

def Fits (f : Field) : Prop := f.mask >>> f.low &&& f.top = f.top

instance (f : Field) : Decidable f.Fits := inferInstanceAs (Decidable (_ = _))

theorem get_congr {f : Field} (hf : f.Fits) {a b : UInt32} (hab : a &&& f.mask = b &&& f.mask) :
    f.get a = f.get b := by
  have hmasked (w : UInt32) : f.get w = (w &&& f.mask) >>> f.low &&& f.top := by
    unfold Fits at hf
    rw [UInt32.shiftRight_and, UInt32.and_assoc, hf]
    rfl
  rw [hmasked, hmasked, hab]

theorem get_set {f : Field} (hf : f.Fits) (word v : UInt32) :
    f.get (f.set word v) = f.get ((v &&& f.top) <<< f.low) := by
  refine get_congr hf ?_
  unfold set
  rw [or_and_each, and_not_and, UInt32.zero_or]

theorem get_set_of_apart {f g : Field} (hg : g.Fits) (hapart : f.mask &&& g.mask = 0)
    (word v : UInt32) : g.get (f.set word v) = g.get word :=
  get_congr hg (f.set_and word v g.mask hapart)

end Field

/-! ## Slots -/

namespace Slot
variable {α : Type}

def asFound (x : Slot α) : Slot α := { x with proposed := x.found }

/-- Found and proposed value differ in no other bits. -/
def DiffersIn (bits : UInt32) (x : Slot UInt32) : Prop :=
  x.proposed &&& ~~~bits = x.found &&& ~~~bits

theorem asFound_propose (x : Slot α) (v : α) : (x.propose v).asFound = x.asFound := rfl

theorem ReadFrom.asFound {value : UInt16 → α → Prop} {addr : UInt32} {x : Slot α}
    (hx : x.ReadFrom value addr) : x.asFound = x := by
  obtain ⟨v, -, rfl⟩ := hx
  rfl

theorem proposed_of_asFound {x : Slot α} (hx : x.asFound = x) : x.proposed = x.found :=
  (congrArg Slot.proposed hx).symm

theorem DiffersIn.set {bits : UInt32} {x : Slot UInt32} (hx : x.DiffersIn bits) {f : Field}
    (hf : f.mask &&& ~~~bits = 0) (v : UInt32) :
    (x.propose (f.set x.proposed v)).DiffersIn bits :=
  (f.set_and x.proposed v _ hf).trans hx

end Slot

/-! ## What a proposal changes -/

namespace Pll

def asFound : Pll → Pll
  | combo p => combo { p with cfgcr0 := p.cfgcr0.asFound, cfgcr1 := p.cfgcr1.asFound }
  | dkl p =>
    dkl { p with
      div0 := p.div0.asFound
      ssc := p.ssc.asFound
      bias := p.bias.asFound
      serializer := p.serializer.asFound
      dco := p.dco.asFound }
  | c10 p => c10 { p with bytes := p.bytes.map Slot.asFound }
  | c20 p =>
    c20 { p with
      tx := p.tx.map Slot.asFound
      cmn := p.cmn.map Slot.asFound
      mpll := p.mpll.map Slot.asFound }
  | dpMn p => dpMn { p with m := p.m.asFound, n := p.n.asFound }

/-- The proposal differs from what was found in the divider fields at most. -/
def InFields : Pll → Prop
  | combo p => p.cfgcr0.DiffersIn 0x01FFFFFF ∧ p.cfgcr1.DiffersIn 0
  | dkl p =>
    p.div0.DiffersIn 0xFF ∧ p.bias.DiffersIn 0x3FFFFF00 ∧ p.serializer.DiffersIn 0x207 ∧
      p.ssc.DiffersIn 0xE0002000 ∧ p.dco.DiffersIn 4
  | c10 p => ∀ i : Fin 20, i ≠ C10Pll.quotLow → i ≠ C10Pll.quotHigh →
    (p.bytes.get i).proposed = (p.bytes.get i).found
  | c20 p =>
    (∀ i : Fin 3, (p.tx.get i).proposed = (p.tx.get i).found) ∧
      (∀ i : Fin 4, (p.cmn.get i).proposed = (p.cmn.get i).found) ∧
        ∀ i : Fin 10, i.val ≠ 8 → i.val ≠ 9 → (p.mpll.get i).proposed = (p.mpll.get i).found
  | dpMn p => p.n.proposed = p.n.found

/-- What else a DKL PLL needs to lock again is in place. -/
def CanLock : Pll → Prop
  | dkl p =>
    DklPll.serializerMode.get p.serializer.proposed = 0 ∧
      DklPll.serializerDiv.get p.serializer.proposed = 1 ∧
      DklPll.sscStepLength.get p.ssc.proposed = 2 ∧ DklPll.sscEnable.get p.ssc.proposed = 1 ∧
      DklPll.dcoEnable.get p.dco.proposed = 1
  | _ => True

def HasRatio : Pll → Prop
  | dkl p => DklClock.preDivider.get p.div0.proposed ≠ 0
  | _ => True

/-- What becomes of a PLL when a target is accepted. -/
inductive Proposes : Pll → Pll → Prop where
  | combo (p : ComboPll) (integer fraction : UInt32) :
      Proposes (.combo p) (.combo (p.propose integer fraction))
  | dkl (p : DklPll) (integer fraction : UInt32) :
      Proposes (.dkl p) (.dkl (p.propose integer fraction))
  | c10 (p : C10Pll) (quot : UInt16) : Proposes (.c10 p) (.c10 (p.propose quot))
  | c20 (p : C20Pll) (quot rem : UInt16) : Proposes (.c20 p) (.c20 (p.propose quot rem))
  | dpMn (p : LinkRatio) (m : UInt32) :
      Proposes (.dpMn p) (.dpMn { p with m := p.m.propose m })

theorem map_asFound_propose {α : Type} {n i j : Nat} (v : Vector (Slot α) n) (hi : i < n)
    (hj : j < n) (a b : α) :
    ((v.set i (v[i].propose a)).set j (v[j].propose b)).map Slot.asFound = v.map Slot.asFound := by
  rw [Vector.map_set, Vector.map_set, Slot.asFound_propose, Slot.asFound_propose]
  ext1 k hk
  rw [Vector.getElem_set, Vector.getElem_set, Vector.getElem_map]
  split
  · next heq => simp only [heq]
  · split
    · next heq => simp only [heq]
    · rfl

theorem Proposes.asFound {p q : Pll} (h : Proposes p q) : q.asFound = p.asFound := by
  cases h with
  | combo | dkl | dpMn => rfl
  | c10 p quot =>
    have hbytes := map_asFound_propose (i := 11) (j := 12) p.bytes (by decide) (by decide)
      (MessageBus.lowByte quot) (MessageBus.highByte quot)
    exact congrArg (fun bytes => Pll.c10 { p with bytes }) hbytes
  | c20 p quot rem =>
    have hmpll := map_asFound_propose (i := 8) (j := 9) p.mpll (by decide) (by decide) quot rem
    exact congrArg (fun mpll => Pll.c20 { p with
      tx := p.tx.map Slot.asFound, cmn := p.cmn.map Slot.asFound, mpll }) hmpll

theorem Proposes.inFields {p q : Pll} (h : Proposes p q) (hp : p.InFields) : q.InFields := by
  cases h with
  | combo p integer fraction =>
    obtain ⟨h0, h1⟩ := hp
    have hinteger := h0.set (f := ComboClock.integer) (by decide) integer
    exact ⟨hinteger.set (f := ComboClock.fraction) (by decide) fraction, h1⟩
  | dkl p integer fraction =>
    obtain ⟨hdiv0, hbias, hserializer, hssc, hdco⟩ := hp
    refine ⟨hdiv0.set (by decide) integer, hbias.set (by decide) fraction, ?_, ?_,
      hdco.set (by decide) 1⟩
    · exact (hserializer.set (f := DklPll.serializerMode) (by decide) 0).set (by decide) 1
    · exact (hssc.set (f := DklPll.sscStepLength) (by decide) 2).set (by decide) 1
  | c10 p quot =>
    intro i hlow hhigh
    have hother : (p.propose quot).bytes.get i = p.bytes.get i := by
      unfold C10Pll.propose
      rw [get_set, if_neg fun heq => hhigh (Fin.ext heq.symm), get_set,
        if_neg fun heq => hlow (Fin.ext heq.symm)]
    rw [hother]
    exact hp i hlow hhigh
  | c20 p quot rem =>
    obtain ⟨htx, hcmn, hmpll⟩ := hp
    refine ⟨htx, hcmn, fun i h8 h9 => ?_⟩
    have hother : (p.propose quot rem).mpll.get i = p.mpll.get i := by
      unfold C20Pll.propose
      rw [get_set, if_neg fun heq => h9 heq.symm, get_set, if_neg fun heq => h8 heq.symm]
    rw [hother]
    exact hmpll i h8 h9
  | dpMn p m => exact hp

theorem Proposes.canLock {p q : Pll} (h : Proposes p q) : q.CanLock := by
  cases h with
  | dkl p integer fraction =>
    refine ⟨?_, ?_, ?_, ?_, ?_⟩
    · refine (Field.get_set_of_apart (by decide) (by decide) _ _).trans ?_
      exact (Field.get_set (by decide) _ _).trans (by decide)
    · exact (Field.get_set (by decide) _ _).trans (by decide)
    · refine (Field.get_set_of_apart (by decide) (by decide) _ _).trans ?_
      exact (Field.get_set (by decide) _ _).trans (by decide)
    · exact (Field.get_set (by decide) _ _).trans (by decide)
    · exact (Field.get_set (by decide) _ _).trans (by decide)
  | combo | c10 | c20 | dpMn => trivial

theorem preDivider_proposed {x : Slot UInt32} (hx : x.DiffersIn 0xFF) :
    DklClock.preDivider.get x.proposed = DklClock.preDivider.get x.found := by
  refine Field.get_congr (by decide) ?_
  have hmask : DklClock.preDivider.mask = ~~~0xFF &&& DklClock.preDivider.mask := by decide
  unfold Slot.DiffersIn at hx
  rw [hmask, ← UInt32.and_assoc, ← UInt32.and_assoc, hx]

theorem hasRatio_iff {p q : Pll} (hp : p.InFields) (hq : q.InFields)
    (hfound : q.asFound = p.asFound) : q.HasRatio ↔ p.HasRatio := by
  cases p with
  | dkl p =>
    cases q with
    | dkl q =>
      have hdiv0 : q.div0.asFound = p.div0.asFound :=
        congrArg DklPll.div0 (Pll.dkl.inj hfound)
      obtain ⟨-, hword, -⟩ := Slot.mk.inj hdiv0
      show DklClock.preDivider.get q.div0.proposed ≠ 0 ↔
        DklClock.preDivider.get p.div0.proposed ≠ 0
      rw [preDivider_proposed hp.1, preDivider_proposed hq.1, hword]
    | combo | c10 | c20 | dpMn => nomatch hfound
  | combo | c10 | c20 | dpMn =>
    cases q with
    | dkl => nomatch hfound
    | combo | c10 | c20 | dpMn => exact Iff.rfl

variable (h : Host σ)

theorem retune_frequency (p : Pll) {target : Float} (htarget : Scalar.isFrequency target = true)
    (hratio : p.HasRatio) (s : σ) : ∃ q, ((p.retune h target).run s).1 = .ok q ∧ p.Proposes q := by
  rw [retune_eq]
  cases p with
  | combo p =>
    unfold proposal ComboPll.proposal
    rw [map_run, run_then, Environment.requireFrequency_run, if_pos htarget]
    exact ⟨_, rfl, .combo ..⟩
  | dkl p =>
    unfold proposal DklPll.proposal
    rw [map_run, run_then, Environment.requireFrequency_run, if_pos htarget]
    dsimp only
    rw [if_neg hratio]
    exact ⟨_, rfl, .dkl ..⟩
  | c10 p =>
    unfold proposal C10Pll.proposal
    rw [map_run, run_then, Environment.requireFrequency_run, if_pos htarget]
    exact ⟨_, rfl, .c10 ..⟩
  | c20 p =>
    unfold proposal C20Pll.proposal
    rw [map_run, run_then, Environment.requireFrequency_run, if_pos htarget]
    dsimp only
    split <;> split <;> exact ⟨_, rfl, .c20 ..⟩
  | dpMn p =>
    unfold proposal LinkRatio.proposal
    rw [map_run, run_then, Environment.requireFrequency_run, if_pos htarget]
    exact ⟨_, rfl, .dpMn ..⟩

theorem retune_turned_down (p : Pll) {target : Float}
    (htarget : ¬ (Scalar.isFrequency target = true ∧ p.HasRatio)) (s : σ) :
    ∃ e, ((p.retune h target).run s).1 = .error e := by
  rw [retune_eq]
  by_cases hfrequency : Scalar.isFrequency target = true
  · cases p with
    | dkl p =>
      have hratio : DklClock.preDivider.get p.div0.proposed = 0 := by
        by_contra hne
        exact htarget ⟨hfrequency, hne⟩
      unfold proposal DklPll.proposal
      rw [map_run, run_then, Environment.requireFrequency_run, if_pos hfrequency]
      dsimp only
      rw [if_pos hratio]
      exact ⟨_, rfl⟩
    | combo | c10 | c20 | dpMn => exact absurd ⟨hfrequency, trivial⟩ htarget
  · have hturned {α : Type} (what : String) (k : Unit → Fallible σ α) :
        ((h.requireFrequency target what >>= k).run s).1 = .error (.invalidArgument what) := by
      rw [run_then, Environment.requireFrequency_run, if_neg hfrequency]
    cases p with
    | combo p | dkl p | c10 p | c20 p | dpMn p =>
      unfold proposal
      rw [map_run]
      refine ⟨_, congrArg (Except.map _) (hturned _ _)⟩

/-! ## Captures -/

variable {h}

theorem DklPll.leaves_found (p : DklPll) (s : σ) : Leaves (DklPll.capture h) p s
    fun r q => r = .ok () → ∀ x : DklRegister, (q.slot x).asFound = q.slot x := by
  have hread (q : DklPll) : Reaches (fun _ _ => True)
      (DklRegister.readOrder.forM (DklPll.captureRegister h)).run q s
      (ending (fun _ q' _ => ∀ x : DklRegister, (q'.slot x).asFound = q'.slot x)
        fun _ _ _ => True) := by
    refine (reaches_every (I := fun _ _ => True) (E := fun _ _ => True)
      (P := fun (x : DklRegister) q => (q.slot x).asFound = q.slot x) ?_ trivial).mono ?_
    · intro x q s₁ _
      refine reaches_andThen (reaches_current (reaches_andThen (reaches_call anywhere ?_)))
      dsimp only [ending]
      split
      · exact reaches_andThen (reaches_call anywhere (reaches_andThen (reaches_throw trivial)))
      · refine reaches_replace anywhere ⟨trivial, ?_, fun y hy => ?_⟩
        · rw [DklPll.slot_setSlot, if_pos rfl]
          rfl
        · rw [DklPll.slot_setSlot]
          split
          · rfl
          · exact hy
    · rintro (e | u) q' s' hr
      · trivial
      · exact fun x => hr.2.1 x (by cases x <;> decide)
  refine reaches_andThen (reaches_change anywhere (reaches_andThen ((hread _).mono ?_)))
  rintro (e | u) q s' hr
  · exact nofun
  · exact reaches_change anywhere fun _ x => by
      have hx := hr x
      cases x <;> exact hx

theorem get_map_asFound {α : Type} {n : Nat} (v : Vector (Slot α) n) (i : Fin n) :
    (v.map Slot.asFound).get i = (v.get i).asFound := v.getElem_map Slot.asFound i.isLt

theorem map_asFound_eq {α : Type} {n : Nat} {v : Vector (Slot α) n}
    (hv : ∀ i : Fin n, (v.get i).asFound = v.get i) : v.map Slot.asFound = v := by
  ext1 i hi
  exact (get_map_asFound v ⟨i, hi⟩).trans (hv ⟨i, hi⟩)

theorem asFound_dkl {p : DklPll} (hp : ∀ x : DklRegister, (p.slot x).asFound = p.slot x) :
    (dkl p).asFound = dkl p := by
  have hdiv0 : p.div0.asFound = p.div0 := hp .div0
  have hssc : p.ssc.asFound = p.ssc := hp .ssc
  have hbias : p.bias.asFound = p.bias := hp .bias
  have hserializer : p.serializer.asFound = p.serializer := hp .serializer
  have hdco : p.dco.asFound = p.dco := hp .dco
  unfold asFound
  dsimp only
  rw [hdiv0, hssc, hbias, hserializer, hdco]

theorem asFound_c10 {p : C10Pll} (hp : ∀ i : Fin 20, (p.bytes.get i).asFound = p.bytes.get i) :
    (c10 p).asFound = c10 p := by
  unfold asFound
  dsimp only
  rw [map_asFound_eq hp]

theorem asFound_c20 {p : C20Pll} (htx : ∀ i : Fin 3, (p.tx.get i).asFound = p.tx.get i)
    (hcmn : ∀ i : Fin 4, (p.cmn.get i).asFound = p.cmn.get i)
    (hmpll : ∀ i : Fin 10, (p.mpll.get i).asFound = p.mpll.get i) : (c20 p).asFound = c20 p := by
  unfold asFound
  dsimp only
  rw [map_asFound_eq htx, map_asFound_eq hcmn, map_asFound_eq hmpll]

theorem asFound_capture {p q : Pll} {s s' : σ}
    (hcaptured : Pll.capture h p s = ((.ok (), q), s')) : q.asFound = q := by
  have hanswer : (Pll.capture h p s).1.1 = .ok () := congrArg (fun c => c.1.1) hcaptured
  obtain rfl : (Pll.capture h p s).1.2 = q := congrArg (fun c => c.1.2) hcaptured
  cases p with
  | combo p | dpMn p => rfl
  | dkl p => exact asFound_dkl ((DklPll.leaves_found p s).post hanswer)
  | c10 p =>
    have hpost := (C10Pll.captures (s := s) (.any h p.bus) p rfl trivial).post
    rw [show (ExceptT.run (C10Pll.capture h) p s).1.1 = _ from hanswer] at hpost
    exact asFound_c10 fun i => (hpost.2 i).asFound
  | c20 p =>
    have hpost := (C20Pll.captures (s := s) (.any h p.bus) p rfl trivial).post
    rw [show (ExceptT.run (C20Pll.capture h) p s).1.1 = _ from hanswer] at hpost
    obtain ⟨-, hlaidOut⟩ := hpost
    refine asFound_c20 (fun i => (hlaidOut.tx i).asFound) (fun i => (hlaidOut.cmn i).asFound)
      fun i => ?_
    by_cases h8 : i = 8
    · rw [h8]
      exact hlaidOut.quotient.asFound
    · by_cases h9 : i = 9
      · rw [h9]
        exact hlaidOut.remainder.asFound
      · exact (hlaidOut.mpll i h8 h9).asFound

theorem inFields_of_asFound {p : Pll} (hp : p.asFound = p) : p.InFields := by
  have hslot {bits : UInt32} {x : Slot UInt32} (hx : x.asFound = x) : x.DiffersIn bits := by
    unfold Slot.DiffersIn
    rw [Slot.proposed_of_asFound hx]
  have heach {α : Type} {n : Nat} {v : Vector (Slot α) n} (hv : v.map Slot.asFound = v) (i : Fin n) :
      (v.get i).proposed = (v.get i).found := by
    have hi : (v.map Slot.asFound).get i = v.get i := by rw [hv]
    exact Slot.proposed_of_asFound ((get_map_asFound v i).symm.trans hi)
  cases p with
  | combo p =>
    have hp := Pll.combo.inj hp
    exact ⟨hslot (congrArg ComboPll.cfgcr0 hp), hslot (congrArg ComboPll.cfgcr1 hp)⟩
  | dkl p =>
    have hp := Pll.dkl.inj hp
    exact ⟨hslot (congrArg DklPll.div0 hp), hslot (congrArg DklPll.bias hp),
      hslot (congrArg DklPll.serializer hp), hslot (congrArg DklPll.ssc hp),
      hslot (congrArg DklPll.dco hp)⟩
  | c10 p => exact fun i _ _ => heach (congrArg C10Pll.bytes (Pll.c10.inj hp)) i
  | c20 p =>
    have hp := Pll.c20.inj hp
    exact ⟨heach (congrArg C20Pll.tx hp), heach (congrArg C20Pll.cmn hp),
      fun i _ _ => heach (congrArg C20Pll.mpll hp) i⟩
  | dpMn p => exact Slot.proposed_of_asFound (congrArg LinkRatio.n (Pll.dpMn.inj hp))

end Pll

/-! ## Calls -/

inductive PllCall where
  | retune (target : Float)
  | program (v : Version)

namespace PllCall

def perform (h : Host σ) : PllCall → Holding Pll σ Unit
  | retune target => Pll.takeTarget h target
  | program v => do
    let p ← get
    p.program h v

def answer (h : Host σ) (c : Pll × σ) (call : PllCall) : Except Failure Unit :=
  ((call.perform h).run c.1 c.2).1.1

def leave (h : Host σ) (c : Pll × σ) (call : PllCall) : Pll × σ :=
  (((call.perform h).run c.1 c.2).1.2, ((call.perform h).run c.1 c.2).2)

variable {h : Host σ}

theorem settles_retune (target : Float) (p : Pll) :
    ((retune target).perform h).Settles p (p.retune h target) := by
  rw [p.retune_eq]
  exact p.settles_takeTarget h target

theorem leave_cases (c : Pll × σ) (call : PllCall) :
    (∃ target, call = retune target ∧ Scalar.isFrequency target = true ∧ c.1.HasRatio ∧
        call.answer h c = .ok () ∧ c.1.Proposes (call.leave h c).1) ∨
      ((∀ target, call = retune target → ¬ (Scalar.isFrequency target = true ∧ c.1.HasRatio) ∧
          call.answer h c ≠ .ok ()) ∧ (call.leave h c).1 = c.1) := by
  cases call with
  | program v => exact .inr ⟨nofun, rfl⟩
  | retune target =>
    have hrun := settles_retune (h := h) target c.1 c.2
    by_cases haccepts : Scalar.isFrequency target = true ∧ c.1.HasRatio
    · obtain ⟨q, hq, hproposes⟩ := c.1.retune_frequency h haccepts.1 haccepts.2 c.2
      refine .inl ⟨target, rfl, haccepts.1, haccepts.2, ?_⟩
      unfold answer leave
      rcases hretune : (c.1.retune h target).run c.2 with ⟨r, s'⟩
      rw [hretune] at hrun hq
      obtain rfl : r = .ok q := hq
      rw [hrun]
      exact ⟨rfl, hproposes⟩
    · obtain ⟨e, he⟩ := c.1.retune_turned_down h haccepts c.2
      unfold answer leave
      rcases hretune : (c.1.retune h target).run c.2 with ⟨r, s'⟩
      rw [hretune] at hrun he
      obtain rfl : r = .error e := he
      rw [hrun]
      refine .inr ⟨fun t ht => ?_, rfl⟩
      cases ht
      exact ⟨haccepts, nofun⟩

/-- What holds of a captured PLL after any calls. -/
structure Retuned (q p : Pll) : Prop where
  found : p.asFound = q
  inFields : p.InFields

theorem Retuned.leave {q : Pll} {c : Pll × σ} (hc : Retuned q c.1) (call : PllCall) :
    Retuned q (call.leave h c).1 := by
  rcases leave_cases c call with ⟨target, -, -, -, -, hproposes⟩ | ⟨-, hsame⟩
  · exact ⟨hproposes.asFound.trans hc.found, hproposes.inFields hc.inFields⟩
  · rw [hsame]
    exact hc

theorem Retuned.run {q : Pll} : ∀ (calls : List PllCall) {c : Pll × σ}, Retuned q c.1 →
    Retuned q (calls.foldl (PllCall.leave h) c).1
  | [], _, hc => hc
  | call :: calls, _, hc => Retuned.run calls (hc.leave call)

theorem canLock_run : ∀ (calls : List PllCall) {c : Pll × σ}, c.1.CanLock →
    (calls.foldl (PllCall.leave h) c).1.CanLock
  | [], _, hc => hc
  | call :: calls, c, hc => by
    have hstep : (call.leave h c).1.CanLock := by
      rcases leave_cases c call with ⟨target, -, -, -, -, hproposes⟩ | ⟨-, hsame⟩
      · exact hproposes.canLock
      · rw [hsame]
        exact hc
    exact canLock_run calls hstep

end PllCall

/-- After a capture that succeeded, whatever the targets and however the versions are
programmed in between: no address and no found value changes, and the proposal differs
from what was found in the divider fields at most. A call that fails changes no slot. A
target is accepted if it is a frequency and, on a DKL PLL, a pre-divider was found; from
then on a DKL PLL has what it needs to lock again, whatever was found. -/
theorem retunes_stay_in_fields {h : Host σ} {p q : Pll} {s s₁ : σ}
    (hcaptured : Pll.capture h p s = ((.ok (), q), s₁)) (calls : List PllCall) :
    let left := calls.foldl (PllCall.leave h) (q, s₁)
    (q.asFound = q ∧ left.1.asFound = q) ∧ left.1.InFields ∧
      (∀ call : PllCall, call.answer h left ≠ .ok () → (call.leave h left).1 = left.1) ∧
      (∀ target, (PllCall.retune target).answer h left = .ok () ↔
        Scalar.isFrequency target = true ∧ q.HasRatio) ∧
      (∀ before target after, calls = before ++ .retune target :: after →
        (PllCall.retune target).answer h (before.foldl (PllCall.leave h) (q, s₁)) = .ok () →
          left.1.CanLock) := by
  intro left
  have hfound := Pll.asFound_capture hcaptured
  have hstart : PllCall.Retuned q q := ⟨hfound, Pll.inFields_of_asFound hfound⟩
  have hleft : PllCall.Retuned q left.1 := PllCall.Retuned.run calls hstart
  refine ⟨⟨hfound, hleft.found⟩, hleft.inFields, fun call hfailed => ?_, fun target => ?_, ?_⟩
  · rcases PllCall.leave_cases left call with ⟨_, -, -, -, hok, -⟩ | ⟨-, hsame⟩
    · exact absurd hok hfailed
    · exact hsame
  · rw [← Pll.hasRatio_iff hstart.inFields hleft.inFields (hleft.found.trans hfound.symm)]
    rcases PllCall.leave_cases left (.retune target) with ⟨t, ht, haccepts⟩ | ⟨hturned, -⟩
    · cases ht
      exact iff_of_true haccepts.2.2.1 ⟨haccepts.1, haccepts.2.1⟩
    · exact iff_of_false (hturned target rfl).2 (hturned target rfl).1
  · rintro before target after rfl hok
    show Pll.CanLock ((before ++ .retune target :: after).foldl (PllCall.leave h) (q, s₁)).1
    rw [List.foldl_append, List.foldl_cons]
    refine PllCall.canLock_run after ?_
    rcases PllCall.leave_cases (before.foldl (PllCall.leave h) (q, s₁)) (.retune target) with
      ⟨_, -, -, -, -, hproposes⟩ | ⟨hturned, -⟩
    · exact hproposes.canLock
    · exact absurd hok (hturned target rfl).2

def Bench.ofDkl : Bench :=
  { blank 0 with
    hardware := (((Hardware.blank 0).setRegister 0x168200 0xABCD1234).setRegister 0x168220
      0x5555AAAA).setRegister 0x168210 0x12345678 }

theorem retunes_stay_in_fields_dkl : ∃ q s₁,
    Pll.capture Bench.host (.dkl (.ofIndex 0)) Bench.ofDkl = ((.ok (), q), s₁) ∧
      let left := [.retune 8100.0, .program .found, .retune (-1.0)].foldl
        (PllCall.leave Bench.host) (q, s₁)
      left.1.asFound = q ∧ left.1.InFields ∧ left.1.CanLock := by
  have hok : (Pll.capture Bench.host (.dkl (.ofIndex 0)) Bench.ofDkl).1.1 = .ok () := by
    decide +kernel
  have haccepted : (PllCall.retune 8100.0).answer Bench.host
      ((Pll.capture Bench.host (.dkl (.ofIndex 0)) Bench.ofDkl).1.2,
        (Pll.capture Bench.host (.dkl (.ofIndex 0)) Bench.ofDkl).2) = .ok () := by
    decide +kernel
  rcases hcaptured : Pll.capture Bench.host (.dkl (.ofIndex 0)) Bench.ofDkl with ⟨⟨r, q⟩, s₁⟩
  rw [hcaptured] at hok haccepted
  obtain rfl : r = .ok () := hok
  have hcalls := retunes_stay_in_fields hcaptured
    [.retune 8100.0, .program .found, .retune (-1.0)]
  exact ⟨q, s₁, rfl, hcalls.1.2, hcalls.2.1, hcalls.2.2.2.2 [] 8100.0 _ rfl haccepted⟩

end Retune
