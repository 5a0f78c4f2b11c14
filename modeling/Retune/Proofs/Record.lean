import Retune.Proofs.Operations

/-!
# Recorded runs

A run is recorded by a station and a device that act on the world as before and
write down what matters of it: captures, timers armed, what is programmed, and
rollbacks that are complete, each with the world it happened in.
-/

namespace Retune

/-- What is written down of a run. The world is the one just before. -/
inductive Event (δ σ : Type) where
  | captured (world : σ)
  | armed (generation : Nat) (world : σ)
  | programmed (device : δ) (v : Version) (world : σ)
  | restored (world : σ)

/-- Every event is as `P` has it, in view of the events before it. -/
inductive Throughout {δ σ : Type} (P : Event δ σ → List (Event δ σ) → Prop) :
    List (Event δ σ) → Prop where
  | nil : Throughout P []
  | cons {e older} : P e older → Throughout P older → Throughout P (e :: older)

/-- A world with what has happened so far, the latest first. -/
structure Recorded (δ σ : Type) where
  world : σ
  events : List (Event δ σ)

namespace Recorded
variable {δ σ α : Type}

def silently (x : StateM σ α) : StateM (Recorded δ σ) α := fun r =>
  ((x r.world).1, { r with world := (x r.world).2 })

def noting (e : σ → Event δ σ) (x : StateM σ α) : StateM (Recorded δ σ) α := fun r =>
  ((x r.world).1, ⟨(x r.world).2, e r.world :: r.events⟩)

end Recorded

variable {δ σ : Type}

def Station.recorded (st : Station σ) (δ : Type) : Station (Recorded δ σ) where
  stopRequested signal := Recorded.silently (st.stopRequested signal)
  report n :=
    if n.isRestored then Recorded.noting .restored (st.report n)
    else Recorded.silently (st.report n)
  pause ms := Recorded.silently (st.pause ms)
  armTimer delayMs generation :=
    Recorded.noting (.armed generation) (st.armTimer delayMs generation)
  cancelTimer id := Recorded.silently (st.cancelTimer id)
  elapse := Recorded.silently st.elapse

def Adjustable.recorded (dev : Adjustable δ σ) : Adjustable δ (Recorded δ σ) where
  retune d clock := ExceptT.mk (Recorded.silently (dev.retune d clock).run)
  program d v := ExceptT.mk (Recorded.noting (.programmed d v) (dev.program d v).run)
  capture := ExceptT.mk fun d r =>
    let ((x, d), s) := dev.capture d r.world
    ((x, d), ⟨s, .captured r.world :: r.events⟩)
  captured := dev.captured
  clock := dev.clock
  listing := dev.listing

def Operation.recorded (δ : Type) : Operation σ → Operation (Recorded δ σ) :=
  within fun f r => { r with world := f r.world }

def Scope.recorded (x : Scope σ) (δ : Type) : Scope (Recorded δ σ) where
  captures := x.captures
  tries := x.tries
  commits := x.commits
  moves := x.moves
  outside g := ∃ f, x.outside f ∧ g = fun r => { r with world := f r.world }

def Operation.record (st : Station σ) (dev : Adjustable δ σ) (ops : List (Operation σ))
    (c : Controller δ) (s : σ) : Controller δ × Recorded δ σ :=
  leave (st.recorded δ) dev.recorded (ops.map (·.recorded δ)) c ⟨s, []⟩

/-! ## What is written down -/

section
variable {st : Station σ} {dev : Adjustable δ σ} {r r' : Recorded δ σ}

theorem recorded_report {n : Notice} (hn : n.isRestored = false) (r : Recorded δ σ) :
    (st.recorded δ).report n r = ((), ⟨(st.report n r.world).2, r.events⟩) := by
  simp only [Station.recorded, hn]
  rfl

theorem recorded_disarm (p : Progress) (r : Recorded δ σ) :
    Controller.disarm (st.recorded δ) p r = ⟨Controller.disarm st p r.world, r.events⟩ := by
  unfold Controller.disarm
  cases p.timer <;> rfl

theorem recorded_reprogram (d : δ) (r : Recorded δ σ) :
    Controller.reprogram (st.recorded δ) dev.recorded d r =
      ⟨Controller.reprogram st dev d r.world, .programmed d .found r.world :: r.events⟩ := by
  have hprogram : dev.recorded.program d .found r = ((dev.program d .found r.world).1,
      ⟨(dev.program d .found r.world).2, .programmed d .found r.world :: r.events⟩) := rfl
  unfold Controller.reprogram
  rw [hprogram]
  rcases dev.program d .found r.world with ⟨e | u, s⟩
  · simp only [recorded_report (n := AdjustmentNotice.restoreFailed e) rfl]
  · rfl

theorem recorded_restore (c : Controller δ) (r : Recorded δ σ) :
    Controller.restore (st.recorded δ) dev.recorded c r =
      ⟨Controller.restore st dev c r.world, .restored (Controller.reprogram st dev c.device r.world) ::
        .programmed c.device .found r.world :: r.events⟩ := by
  unfold Controller.restore
  rw [recorded_reprogram]
  rfl

theorem recorded_retune {d : δ} {clock : Float} {x : Except Failure δ}
    (h : dev.recorded.retune d clock r = (x, r')) :
    dev.retune d clock r.world = (x, r'.world) ∧ r'.events = r.events := by
  cases h
  exact ⟨rfl, rfl⟩

theorem recorded_capture {d d' : δ} {x : Except Failure Unit}
    (h : dev.recorded.capture d r = ((x, d'), r')) :
    dev.capture d r.world = ((x, d'), r'.world) ∧ r'.events = .captured r.world :: r.events := by
  cases h
  exact ⟨rfl, rfl⟩

theorem recorded_scope (op : Operation σ) : (op.recorded δ).scope = op.scope.recorded δ := by
  cases op <;> refine Scope.ext rfl rfl rfl rfl (funext fun g => propext ?_)
  case outside f =>
    constructor
    · intro hg
      exact ⟨f, rfl, hg⟩
    · intro hg
      obtain ⟨_, rfl, hg⟩ := hg
      exact hg
  all_goals exact ⟨nofun, fun hg => hg.elim fun _ hg => hg.1.elim⟩

theorem Lasting.recorded {K : δ → Prop} (hK : Lasting dev K) : Lasting dev.recorded K where
  capture h := hK.capture (recorded_capture h).1
  retune h := hK.retune (recorded_retune h).1
  listing := hK.listing

variable (st) in
theorem Operation.record_keeps {K : δ → Prop} {I : Controller δ → Recorded δ σ → Prop}
    (hK : Lasting dev K) (ops : List (Operation σ)) {c : Controller δ} {s : σ}
    (hstep : ∀ op ∈ ops, ∀ a b,
      Controller.Step (st.recorded δ) dev.recorded K (op.scope.recorded δ) a b → I a.1 a.2 →
        I b.1 b.2)
    (hc : c.Settled K) (hI : I c ⟨s, []⟩) :
    (record st dev ops c s).1.Settled K ∧
      I (record st dev ops c s).1 (record st dev ops c s).2 := by
  refine leave_keeps (I := fun a => I a.1 a.2) hK.recorded _ ?_ hc hI
  intro op hop a b h
  obtain ⟨o, ho, rfl⟩ := List.mem_map.mp hop
  rw [recorded_scope] at h
  exact hstep o ho a b h

end

end Retune
