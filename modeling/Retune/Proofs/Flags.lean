import Retune.Proofs.Targets

/-!
# Complete captures

The flag of a PLL says that its last capture was complete: a capture raises it
when it succeeds and leaves it down when it fails, and nothing else touches it.
-/

namespace Retune

open Relation

variable {σ : Type} (h : Host σ)

section
variable {γ α : Type}

theorem anywhere {c c' : γ} {s s' : σ} :
    ReflTransGen (fun _ _ : γ × σ => True) (c, s) (c', s') := .single trivial

/-- What `x` answers and leaves satisfies `Q`, whatever the way there. -/
def Leaves (x : Holding γ σ α) (c : γ) (s : σ) (Q : Except Failure α → γ → Prop) : Prop :=
  Reaches (fun _ _ => True) x.run c s fun r c _ => Q r c

end

/-! ## Captures -/

theorem ComboPll.leaves_capture (p : ComboPll) (s : σ) :
    Leaves (ComboPll.capture h) p s fun r p => p.captured = r.isOk := by
  refine reaches_andThen (reaches_current ?_)
  refine reaches_andThen (reaches_call anywhere (reaches_andThen (reaches_call anywhere ?_)))
  exact reaches_andThen (reaches_replace anywhere (reaches_call anywhere rfl))

theorem LinkRatio.leaves_capture (p : LinkRatio) (s : σ) :
    Leaves (LinkRatio.capture h) p s fun r p => p.captured = r.isOk := by
  refine reaches_andThen (reaches_current ?_)
  refine reaches_andThen (reaches_call anywhere (reaches_andThen (reaches_call anywhere ?_)))
  exact reaches_replace anywhere rfl

theorem DklPll.captured_setSlot (p : DklPll) (r : DklRegister) (x : Slot UInt32) :
    (p.setSlot r x).captured = p.captured := by
  cases r <;> rfl

theorem DklPll.leaves_captureRegister (r : DklRegister) (p : DklPll) (s : σ)
    (hp : p.captured = false) :
    Leaves (DklPll.captureRegister h r) p s fun _ p => p.captured = false := by
  refine reaches_andThen (reaches_current (reaches_andThen (reaches_call anywhere ?_)))
  dsimp only [ending]
  split
  · refine reaches_andThen (reaches_call anywhere ?_)
    exact reaches_andThen (reaches_throw hp)
  · exact reaches_replace anywhere ((p.captured_setSlot r _).trans hp)

theorem leaves_before {γ α : Type} (flag : γ → Bool) {x : Holding γ σ α} {f : α → Holding γ σ Unit}
    {c : γ} {s : σ} (hx : Leaves x c s fun _ c => flag c = false)
    (hf : ∀ a c s, flag c = false → Leaves (f a) c s fun r c => flag c = r.isOk) :
    Leaves (x >>= f) c s fun r c => flag c = r.isOk := by
  refine reaches_andThen (hx.mono ?_)
  intro r c s hc
  cases r with
  | error e => exact hc
  | ok a => exact hf a c s hc

theorem leaves_flagged {γ : Type} {lower raise : γ → γ} {flag : γ → Bool}
    (hlower : ∀ c, flag (lower c) = false) (hraise : ∀ c, flag (raise c) = true)
    {x : Holding γ σ Unit} (hx : ∀ c s, flag c = false → Leaves x c s fun _ c => flag c = false)
    (c : γ) (s : σ) :
    Leaves (do modify lower; x; modify raise) c s fun r c => flag c = r.isOk := by
  refine reaches_andThen (reaches_change anywhere (reaches_andThen ((hx _ _ (hlower c)).mono ?_)))
  intro r c s hc
  cases r with
  | error e => exact hc
  | ok u => exact reaches_change anywhere (hraise c)

theorem DklPll.leaves_capture (p : DklPll) (s : σ) :
    Leaves (DklPll.capture h) p s fun r p => p.captured = r.isOk :=
  leaves_flagged (fun _ => rfl) (fun _ => rfl)
    (fun _ _ hp => reaches_each (fun r _ p s hp => leaves_captureRegister h r p s hp) hp) p s

theorem C10Pll.leaves_captureByte (i : Fin 20) (p : C10Pll) (s : σ) (hp : p.captured = false) :
    Leaves (C10Pll.captureByte h i) p s fun _ p => p.captured = false := by
  refine reaches_andThen (reaches_current (reaches_andThen (reaches_try anywhere ?_)))
  rcases ((p.bus.readByte h 0 p.bytes[i].addr.toUInt16).run s).1 with e | value
  · exact hp
  · exact reaches_andThen (reaches_replace anywhere (reaches_call anywhere hp))

theorem C10Pll.leaves_capture (p : C10Pll) (s : σ) :
    Leaves (C10Pll.capture h) p s fun r p => p.captured = r.isOk :=
  leaves_flagged (fun _ => rfl) (fun _ => rfl)
    (fun _ _ hp => reaches_each (fun i _ p s hp => leaves_captureByte h i p s hp) hp) p s

theorem C20Pll.leaves_captureWord {slot : C20Pll → Slot UInt16}
    {put : Slot UInt16 → C20Pll → C20Pll} (hput : ∀ x p, (put x p).captured = p.captured)
    (addr : UInt32) (p : C20Pll) (s : σ) (hp : p.captured = false) :
    Leaves (C20Pll.captureWord h slot put addr) p s fun _ p => p.captured = false := by
  have hmoved : (put { slot p with addr } p).captured = false := (hput _ p).trans hp
  refine reaches_andThen (reaches_change anywhere (reaches_andThen (reaches_current ?_)))
  refine reaches_andThen (reaches_try anywhere ?_)
  rcases ((C20Pll.bus _).readWord h .lane0 addr.toUInt16 |>.run s).1 with e | word
  · exact hmoved
  · exact reaches_change anywhere ((hput _ _).trans hmoved)

theorem C20Pll.leaves_capture (p : C20Pll) (s : σ) :
    Leaves (C20Pll.capture h) p s fun r p => p.captured = r.isOk := by
  have htx (contextB : Bool) (i : Fin 3) (p : C20Pll) (s : σ) (hp : p.captured = false) :
      Leaves (captureTx h contextB i) p s fun _ p => p.captured = false := by
    refine leaves_captureWord h ?_ _ p s hp
    exact fun _ _ => rfl
  have hcmn (contextB : Bool) (i : Fin 4) (p : C20Pll) (s : σ) (hp : p.captured = false) :
      Leaves (captureCmn h contextB i) p s fun _ p => p.captured = false := by
    refine leaves_captureWord h ?_ _ p s hp
    exact fun _ _ => rfl
  have hmpll (i : Fin 10) (addr : UInt32) (p : C20Pll) (s : σ) (hp : p.captured = false) :
      Leaves (captureMpll h i addr) p s fun _ p => p.captured = false := by
    refine leaves_captureWord h ?_ _ p s hp
    exact fun _ _ => rfl
  refine leaves_before captured (reaches_change anywhere rfl) fun _ p s hp => ?_
  refine leaves_before captured (reaches_current hp) fun opened p s hp => ?_
  refine leaves_before captured (reaches_try anywhere hp) fun rate p s hp => ?_
  refine leaves_before captured (reaches_change anywhere hp) fun _ p s hp => ?_
  refine leaves_before captured (reaches_each (fun i _ p s hp => htx _ i p s hp) hp)
    fun _ p s hp => ?_
  refine leaves_before captured (reaches_each (fun i _ p s hp => hcmn _ i p s hp) hp)
    fun _ p s hp => ?_
  refine leaves_before captured (reaches_current hp) fun q p s hp => ?_
  refine leaves_before captured (reaches_change anywhere hp) fun _ p s hp => ?_
  refine leaves_before captured (reaches_each (fun i _ p s hp => hmpll i _ p s hp) hp)
    fun _ p s hp => ?_
  refine leaves_before captured (hmpll 8 _ p s hp) fun _ p s hp => ?_
  refine leaves_before captured (hmpll 9 _ p s hp) fun _ p s hp => ?_
  refine reaches_andThen (reaches_current (reaches_andThen (reaches_replace anywhere ?_)))
  exact reaches_call anywhere rfl

theorem Pll.captured_capture {p p' : Pll} {r : Except Failure Unit} {s s' : σ}
    (hp : Pll.capture h p s = ((r, p'), s')) : p'.captured = r.isOk := by
  cases p with
  | combo p =>
    cases hp
    exact (ComboPll.leaves_capture h p s).post
  | dkl p =>
    cases hp
    exact (DklPll.leaves_capture h p s).post
  | c10 p =>
    cases hp
    exact (C10Pll.leaves_capture h p s).post
  | c20 p =>
    cases hp
    exact (C20Pll.leaves_capture h p s).post
  | dpMn p =>
    cases hp
    exact (LinkRatio.leaves_capture h p s).post

/-! ## Retuning -/

/-- What `x` answers, if anything, satisfies `Q`. -/
def Answers {α : Type} (x : Fallible σ α) (Q : α → Prop) : Prop :=
  ∀ s a s', x.run s = (.ok a, s') → Q a

theorem answers_then {α β : Type} {x : Fallible σ α} {f : α → Fallible σ β} {Q : β → Prop}
    (hf : ∀ a, Answers (f a) Q) : Answers (x >>= f) Q := by
  intro s b s' hrun
  rw [run_then] at hrun
  rcases hx : x.run s with ⟨e | a, s₁⟩ <;> rw [hx] at hrun
  · cases hrun
  · exact hf a s₁ b s' hrun

theorem answers_pure {α : Type} {a : α} {Q : α → Prop} (ha : Q a) :
    Answers (pure a : Fallible σ α) Q := by
  intro s b s' hrun
  cases hrun
  exact ha

theorem answers_map {α β : Type} {f : α → β} {x : Fallible σ α} {Q : β → Prop}
    (hx : Answers x fun a => Q (f a)) : Answers (f <$> x) Q := by
  intro s b s' hrun
  rw [map_run] at hrun
  rcases hr : x.run s with ⟨e | a, s₁⟩ <;> rw [hr] at hrun <;> cases hrun
  exact hx s a _ hr

theorem Pll.captured_retune (p : Pll) (clock : Float) :
    Answers (p.retune h clock) fun q => q.captured = p.captured := by
  rw [retune_eq]
  cases p with
  | combo p =>
    refine answers_map (answers_then fun _ => ?_)
    exact answers_then fun _ => answers_pure rfl
  | dkl p =>
    refine answers_map (answers_then fun _ => ?_)
    dsimp only
    split
    · refine answers_then fun _ => answers_then fun _ => ?_
      exact answers_then fun _ => answers_pure rfl
    · exact answers_then fun _ => answers_pure rfl
  | c10 p =>
    refine answers_map (answers_then fun _ => ?_)
    exact answers_then fun _ => answers_pure rfl
  | c20 p =>
    refine answers_map (answers_then fun _ => ?_)
    dsimp only
    split
    · refine answers_then fun _ => ?_
      split
      · exact answers_then fun _ => answers_then fun _ => answers_pure rfl
      · exact answers_then fun _ => answers_pure rfl
    · split
      · exact answers_then fun _ => answers_then fun _ => answers_pure rfl
      · exact answers_then fun _ => answers_pure rfl
  | dpMn p =>
    exact answers_map (answers_then fun _ => answers_pure rfl)

end Retune
