import Retune.Adjustment.Operation
import Retune.Proofs.Paths

/-!
# The steps of a controller

Whatever a controller is asked to do, it does in steps of a few kinds, and the
phase it is in says which of them can come next. An invariant of the steps is
one of every operation.
-/

namespace Retune

open Relation

/-! ## Phases -/

namespace Phase

def isResting : Phase → Bool
  | idle | done => true
  | _ => false

def isUnderway : Phase → Bool
  | captured | targetComputed | stepping => true
  | _ => false

def isOwing : Phase → Bool
  | armed | rollingBack => true
  | _ => false

theorem isUnderway_of_resting {phase : Phase} (h : phase.isResting) : phase.isUnderway = false := by
  cases phase <;> first | rfl | exact absurd h Bool.false_ne_true

theorem isOwing_of_resting {phase : Phase} (h : phase.isResting) : phase.isOwing = false := by
  cases phase <;> first | rfl | exact absurd h Bool.false_ne_true

theorem isResting_of_not {phase : Phase} (hu : phase.isUnderway = false)
    (ho : phase.isOwing = false) : phase.isResting := by
  cases phase <;>
    first
    | rfl
    | exact absurd hu.symm Bool.false_ne_true
    | exact absurd ho.symm Bool.false_ne_true

end Phase

def Notice.isRestored : Notice → Bool
  | .adjustment (.restored _) => true
  | _ => false

/-- What holds of a device after a complete capture and stays under retuning. -/
structure Lasting {δ σ : Type} (dev : Adjustable δ σ) (K : δ → Prop) : Prop where
  capture : ∀ {d d' s s'}, dev.capture d s = ((.ok (), d'), s') → K d'
  retune : ∀ {d clock s d' s'}, dev.retune d clock s = (.ok d', s') → K d → K d'
  listing : ∀ d, ∀ n ∈ dev.listing d, n.isRestored = false

/-- What an operation is allowed besides what follows from the phase. At rest,
only what `moves` moves the device. -/
@[ext]
structure Scope (σ : Type) where
  captures : Prop
  tries : Prop
  commits : Prop
  moves : Prop
  outside : (σ → σ) → Prop

def Scope.shut (σ : Type) : Scope σ := ⟨False, False, False, False, fun _ => False⟩

def Operation.scope {σ : Type} : Operation σ → Scope σ
  | adjust _ | clock => { Scope.shut σ with captures := True }
  | moveTo .. => { Scope.shut σ with captures := True, moves := True }
  | walk m =>
    { Scope.shut σ with tries := m.commit = false, commits := m.commit = true, moves := True }
  | outside f => { Scope.shut σ with outside := fun g => g = f }
  | cancel | expire _ | awaitEnd _ => Scope.shut σ

/-! ## Rounds -/

namespace Move
variable {δ σ : Type} (env : Environment σ) (dev : Walkable δ σ) (m : Move)

theorem round_run (i : Nat) (steps : UInt64) (clock : Float) (d : δ) (s : σ) :
    (m.round env dev i steps clock).run d s =
      match (dev.retune d clock).run (env.report (WalkNotice.step i steps clock) s).2 with
      | (.error e, s) => ((.error e, d), (env.report (WalkNotice.retuneFailed clock e) s).2)
      | (.ok d, s) =>
        if m.commit then
          match (dev.program d .proposed).run s with
          | (.error e, s) => ((.error e, d), (env.report (WalkNotice.programFailed i e) s).2)
          | (.ok (), s) => ((.ok (), d), s)
        else ((.ok (), d), s) := by
  simp only [Move.round, run_andThen, run_call, run_current, run_try,
    Environment.reportingFailure_run]
  rcases (dev.retune d clock).run (env.report (WalkNotice.step i steps clock) s).2 with ⟨e | d', s'⟩
  · rfl
  · simp only [run_replace]
    cases m.commit with
    | false => rfl
    | true =>
      simp only [if_true, run_try, Environment.reportingFailure_run]
      rcases (dev.program d' .proposed).run s' with ⟨e | u, s''⟩ <;> rfl

theorem check_path {T : σ → σ → Prop}
    (hT : ∀ n : PllNotice, ∀ s, T s (env.report n s).2) (s : σ) :
    ReflTransGen T s ((m.check env).run s).2 := by
  simp only [Move.check, run_then, Environment.requireFrequency_run, Environment.requireShift_run]
  by_cases h₁ : Scalar.isFrequency m.current
  · by_cases h₂ : Scalar.isFrequency m.target
    · by_cases h₃ : (!Scalar.isNumber m.shift || decide (m.shift < 0.0)) = true
      · simp only [h₁, h₂, h₃, if_true]; exact .single (hT _ _)
      · simp only [h₁, h₂, h₃, if_true]; exact .refl
    · simp only [h₁, h₂, if_true]; exact .single (hT _ _)
  · simp only [h₁]; exact .single (hT _ _)
end Move

/-! ## Steps -/

namespace Controller
variable {δ σ : Type}

def disarm (st : Station σ) (p : Progress) (s : σ) : σ :=
  match p.timer with
  | some id => (st.cancelTimer id s).2
  | none => s

def reprogram (st : Station σ) (dev : Adjustable δ σ) (d : δ) (s : σ) : σ :=
  match dev.program d .found s with
  | (.ok (), s) => s
  | (.error e, s) => (st.report (AdjustmentNotice.restoreFailed e) s).2

def restore (st : Station σ) (dev : Adjustable δ σ) (c : Controller δ) (s : σ) : σ :=
  (st.report (AdjustmentNotice.restored c.progress.foundClock) (reprogram st dev c.device s)).2

/-- One step of a controller within what `x` allows. A walk that was not asked
for as such commits, and moves a device of which `K` holds. -/
inductive Step (st : Station σ) (dev : Adjustable δ σ) (K : δ → Prop) (x : Scope σ) :
    Controller δ × σ → Controller δ × σ → Prop where
  | noticed {c s} (n : Notice) : n.isRestored = false → Step st dev K x (c, s) (c, (st.report n s).2)
  | asked {c s} (signal : Signal) : Step st dev K x (c, s) (c, (st.stopRequested signal s).2)
  | paused {c s} (ms : UInt64) : Step st dev K x (c, s) (c, (st.pause ms s).2)
  | elapsed {c s} : Step st dev K x (c, s) (c, (st.elapse s).2)
  | refused {c s} (clock : Float) {e s'} : dev.retune c.device clock s = (.error e, s') →
      Step st dev K x (c, s) (c, s')
  | tried {c s} (clock : Float) {d s'} : x.tries → dev.retune c.device clock s = (.ok d, s') →
      Step st dev K x (c, s) ({ c with device := d }, s')
  | moved {c s} (clock : Float) {d s'} : x.commits ∨ K c.device →
      (c.progress.phase.isResting → x.moves) → dev.retune c.device clock s = (.ok d, s') →
      Step st dev K x (c, s) ({ c with device := d }, (dev.program d .proposed s').2)
  | looked {c s} {r d s'} : x.captures → c.progress.phase.isResting →
      dev.capture c.device s = ((r, d), s') →
      Step st dev K x (c, s) ({ c with device := d }, s')
  | began {c s} {d s'} : x.captures → c.progress.phase.isResting →
      dev.capture c.device s = ((.ok (), d), s') →
      Step st dev K x (c, s) ({ c with device := d, progress := c.progress.enter .captured }, s')
  | planned {c s} (found target shift : Float) (waitMs : UInt64) : c.progress.phase.isUnderway →
      Step st dev K x (c, s) (c.update (.planned found target shift waitMs), s)
  | entered {c s} : c.progress.phase.isUnderway →
      Step st dev K x (c, s) (c.update (.enter .stepping), s)
  | undone {c s} : c.progress.phase.isUnderway → K c.device →
      Step st dev K x (c, s) (c.update .finish, (dev.program c.device .found s).2)
  | finished {c s} : c.progress.phase.isOwing = false →
      Step st dev K x (c, s) (c.update .finish, s)
  | armed {c s} (delayMs : UInt64) {id s'} : c.progress.phase.isUnderway → K c.device →
      st.armTimer delayMs (c.progress.generation + 1) s = (id, s') →
      Step st dev K x (c, s) ((c.update .arm).update (.withTimer id), s')
  | retargeted {c s} (clock : Float) : c.isArmed →
      Step st dev K x (c, s) (c.update (.withTarget clock), s)
  | taken {c s} : c.isArmed →
      Step st dev K x (c, s) (c.update .rollBack, disarm st c.progress s)
  | restored {c s} : c.progress.phase = .rollingBack → K c.device →
      Step st dev K x (c, s) (c.update .finish, restore st dev c s)
  | outside {c s} (f : σ → σ) : x.outside f → Step st dev K x (c, s) (c, f s)

/-! ## Walks -/

def inDevice (T : Controller δ × σ → Controller δ × σ → Prop) (c : Controller δ) (a b : δ × σ) :
    Prop :=
  T ({ c with device := a.1 }, a.2) ({ c with device := b.1 }, b.2)

/-- What makes the rounds of a walk steps of a controller. -/
def Licensed (x : Scope σ) (K : δ → Prop) (m : Move) (d : δ) : Prop :=
  if m.commit then x.commits ∨ K d else x.tries

section
variable {st : Station σ} {dev : Adjustable δ σ} {K : δ → Prop} {x : Scope σ} {m : Move}
  {c : Controller δ} {d : δ} {s : σ}

theorem Licensed.commits (hl : Licensed x K m d) (hm : m.commit = true) : x.commits ∨ K d := by
  unfold Licensed at hl
  rw [if_pos hm] at hl
  exact hl

theorem Licensed.tries (hl : Licensed x K m d) (hm : m.commit = false) : x.tries := by
  unfold Licensed at hl
  rw [hm] at hl
  exact hl

theorem Licensed.of_imp {d' : δ} (hl : Licensed x K m d) (hd : K d → K d') : Licensed x K m d' := by
  unfold Licensed at hl ⊢
  cases hm : m.commit <;> rw [hm] at hl
  · exact hl
  · exact hl.imp_right hd

theorem noticed_inDevice (n : Notice) (hn : n.isRestored = false) (d : δ) (s : σ) :
    inDevice (Step st dev K x) c (d, s) (d, (st.report n s).2) :=
  .noticed n hn

variable (hK : ∀ {d clock s d' s'}, dev.retune d clock s = (.ok d', s') → K d → K d')
  (hmoves : c.progress.phase.isResting → x.moves)
include hK hmoves

theorem reaches_round (hl : Licensed x K m d) (i : Nat) (steps : UInt64) (clock : Float) :
    Reaches (inDevice (Step st dev K x) c)
      (m.round st.toEnvironment dev.toWalkable i steps clock).run d s
      fun _ d' _ => K d → K d' := by
  have hrun := m.round_run st.toEnvironment dev.toWalkable i steps clock d s
  have hstart : inDevice (Step st dev K x) c (d, s) _ :=
    noticed_inDevice (WalkNotice.step i steps clock) rfl d s
  generalize (st.report (WalkNotice.step i steps clock) s).2 = s₁ at hrun hstart
  rcases hr : (dev.retune d clock).run s₁ with ⟨e | d', s₂⟩ <;> simp only [hr] at hrun
  · have hrefused : inDevice (Step st dev K x) c (d, s₁) (d, s₂) := .refused clock hr
    exact reaches_of_run hrun
      (.tail (.tail (.single hstart) hrefused) (noticed_inDevice _ rfl _ _)) id
  · have hd : K d → K d' := hK hr
    cases hm : m.commit with
    | false =>
      have htried : inDevice (Step st dev K x) c (d, s₁) (d', s₂) :=
        .tried clock (hl.tries hm) hr
      simp only [hm] at hrun
      exact reaches_of_run hrun (.tail (.single hstart) htried) hd
    | true =>
      have hmoved : inDevice (Step st dev K x) c (d, s₁) (d', (dev.program d' .proposed s₂).2) :=
        .moved clock (hl.commits hm) hmoves hr
      simp only [hm, if_true] at hrun
      rcases hp : (dev.program d' .proposed).run s₂ with ⟨e | u, s₃⟩ <;> simp only [hp] at hrun <;>
        rw [show (dev.program d' .proposed s₂).2 = s₃ from congrArg Prod.snd hp] at hmoved
      · exact reaches_of_run hrun
          (.tail (.tail (.single hstart) hmoved) (noticed_inDevice _ rfl _ _)) hd
      · exact reaches_of_run hrun (.tail (.single hstart) hmoved) hd

variable (st) in
theorem reaches_rounds (signal : Signal) (plan : StepPlan Float) :
    ∀ (left : Nat) (d : δ) (s : σ) (clock : Float), Licensed x K m d →
      Reaches (inDevice (Step st dev K x) c)
        (m.rounds st.toEnvironment dev.toWalkable signal plan left clock).run d s
        fun _ d' _ => K d → K d'
  | 0, _, _, _, _ => reaches_ok id
  | left + 1, d, s, clock, hl => by
    have hasked : inDevice (Step st dev K x) c (d, s) (d, (st.stopRequested signal s).2) :=
      .asked signal
    unfold Move.rounds
    refine reaches_andThen (reaches_call (.single hasked) ?_)
    simp only [ending]
    split
    · exact reaches_andThen (reaches_call (.single (noticed_inDevice _ rfl _ _)) (reaches_ok id))
    · refine reaches_andThen ((reaches_round hK hmoves hl _ _ _).mono ?_)
      intro r d₁ s₁ hd
      cases r with
      | error e => exact hd
      | ok u =>
        -- the round may have moved the device, but the next one is licensed as well
        have hrest (s₂ : σ) (next : Float) :=
          (reaches_rounds signal plan left d₁ s₂ next (hl.of_imp hd)).mono
            fun _ _ _ h hk => h (hd hk)
        simp only [ending]
        split
        · have hpaused : inDevice (Step st dev K x) c (d₁, s₁) (d₁, (st.pause m.waitMs s₁).2) :=
            .paused m.waitMs
          exact reaches_andThen (reaches_call (.single hpaused) (hrest _ _))
        · exact hrest _ _

theorem reaches_move (hl : Licensed x K m d) (signal : Signal) :
    Reaches (inDevice (Step st dev K x) c)
      (m.walk st.toEnvironment dev.toWalkable signal).run d s fun _ d' _ => K d → K d' := by
  have hcheck : ReflTransGen (inDevice (Step st dev K x) c) (d, s)
      (d, ((m.check st.toEnvironment).run s).2) :=
    ReflTransGen.lift (fun s => (d, s)) (fun _ _ h => h) _ _
      (m.check_path st.toEnvironment (fun n s => noticed_inDevice (.pll n) rfl d s) s)
  have hrest (s : σ) := reaches_rounds (c := c) (s := s) st hK hmoves signal m.plan m.plan.steps.toNat d
    m.current hl
  unfold Move.walk
  refine reaches_andThen (reaches_try hcheck ?_)
  rcases ((m.check st.toEnvironment).run s).1 with e | u
  · exact id
  · simp only [ending]
    split
    · exact reaches_andThen (reaches_call (.single (noticed_inDevice _ rfl _ _))
        (reaches_andThen (reaches_call (.single (noticed_inDevice _ rfl _ _)) (hrest _))))
    · exact reaches_andThen (reaches_call (.single (noticed_inDevice _ rfl _ _)) (hrest _))

end

end Controller

end Retune
