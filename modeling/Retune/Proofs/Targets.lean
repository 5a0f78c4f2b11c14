import Retune.Pll
import Retune.Proofs.Paths

/-!
# Targets of PLLs

What becomes of a PLL that is given a target clock. All checks come before the first
slot is written, so a PLL that turns a target down is what it was.
-/

namespace Retune

variable {σ δ : Type}

/-! ## Programs that fail without a trace -/

theorem run_leaving (x : Holding δ σ Unit) (d : δ) (s : σ) :
    (x.leaving d).run s = ((x.run d s).1.1.map fun _ => (x.run d s).1.2, (x.run d s).2) := rfl

/-- On `d`, what `x` leaves is what `y` answers, and where `y` fails it is `d`. -/
def Holding.Settles (x : Holding δ σ Unit) (d : δ) (y : Fallible σ δ) : Prop :=
  ∀ s, x.run d s =
    match y.run s with
    | (.ok d', s') => ((.ok (), d'), s')
    | (.error e, s') => ((.error e, d), s')

theorem Holding.Settles.leaving {x : Holding δ σ Unit} {d : δ} {y : Fallible σ δ}
    (hx : x.Settles d y) : x.leaving d = y := by
  refine funext fun s => ?_
  show (x.leaving d).run s = y.run s
  rw [run_leaving, hx s]
  rcases y.run s with ⟨e | d', s'⟩ <;> rfl

theorem Holding.Settles.eq {x : Holding δ σ Unit} {d : δ} {y : Fallible σ δ} (hx : x.Settles d y) :
    x.run d = y.run >>= fun
      | .ok d' => pure (.ok (), d')
      | .error e => pure (.error e, d) := by
  refine funext fun s => (hx s).trans ?_
  simp only [bind, StateT.bind]
  rcases y.run s with ⟨e | d', s'⟩ <;> rfl

theorem Holding.Settles.map {ε : Type} {x : Holding δ σ Unit} {d : δ} {y : Fallible σ δ}
    (hx : x.Settles d y) (f : δ → ε) {x' : Holding ε σ Unit}
    (hx' : ∀ s, x'.run (f d) s = (fun r => ((r.1.1, f r.1.2), r.2)) (x.run d s)) :
    x'.Settles (f d) (f <$> y) := by
  intro s
  rw [hx', hx s, map_run]
  rcases y.run s with ⟨e | d', s'⟩ <;> rfl

/-! ## Families

A proposal answers with the new PLL instead of writing slots. -/

variable (h : Host σ)

namespace ComboPll

def proposal (p : ComboPll) (target : Float) : Fallible σ ComboPll := do
  h.requireFrequency target "DCO target"
  let (integer, fraction) := ComboClock.ratioFor target
  h.report (PllNotice.comboRetuned p.index target integer fraction)
  return p.propose integer fraction

theorem settles_takeTarget (p : ComboPll) (target : Float) :
    (takeTarget h target).Settles p (p.proposal h target) := by
  intro s
  unfold takeTarget proposal
  rw [run_andThen, run_try, run_then]
  rcases (h.requireFrequency target "DCO target").run s with ⟨e | u, s'⟩ <;> rfl

end ComboPll

namespace DklPll

def proposal (p : DklPll) (target : Float) : Fallible σ DklPll := do
  h.requireFrequency target "DKL target"
  let preDiv := DklClock.preDivider.get p.div0.proposed
  if preDiv = 0 then
    h.report (PllNotice.dklNoPreDivider p.index)
    throw (.invalidArgument "DKL pre-divider is zero")
  let (integer, fraction) := DklClock.ratioFor target preDiv
  h.report (PllNotice.dklRetuned p.index target integer fraction)
  return p.propose integer fraction

theorem settles_takeTarget (p : DklPll) (target : Float) :
    (takeTarget h target).Settles p (p.proposal h target) := by
  intro s
  unfold takeTarget proposal
  rw [run_andThen, run_try, run_then]
  rcases (h.requireFrequency target "DKL target").run s with ⟨e | u, s'⟩
  · rfl
  · dsimp only
    rw [run_andThen, run_current]
    dsimp only
    split <;> rfl

end DklPll

namespace C10Pll

def proposal (p : C10Pll) (target : Float) : Fallible σ C10Pll := do
  h.requireFrequency target "C10 target"
  let r := p.ratio .proposed
  let quot := r.quotientFor (r.feedbackFor target)
  h.report (PllNotice.c10Retuned p.bus.port r.quot quot r.rem r.den r.multiplier)
  return p.propose quot.toUInt16

theorem settles_takeTarget (p : C10Pll) (target : Float) :
    (takeTarget h target).Settles p (p.proposal h target) := by
  intro s
  unfold takeTarget proposal
  rw [run_andThen, run_try, run_then]
  rcases (h.requireFrequency target "C10 target").run s with ⟨e | u, s'⟩ <;> rfl

theorem retune_eq (p : C10Pll) (target : Float) : p.retune h target = p.proposal h target :=
  (p.settles_takeTarget h target).leaving

end C10Pll

namespace C20Pll

def proposal (p : C20Pll) (target : Float) : Fallible σ C20Pll := do
  h.requireFrequency target "C20 target"
  let port := p.bus.port
  if !p.dividers.fracEnabled then
    h.report (PllNotice.c20FractionOff port)
  let (quot, rest) := p.dividers.quotientFor target p.denominator.found
  if (65535.0 : Float) < Scalar.round rest then
    h.report (PllNotice.c20RemainderClamped port rest)
  let rem := Scalar.toField (Scalar.round rest) 0xFFFF
  h.report (PllNotice.c20Retuned port p.quotient.found quot p.remainder.found rem)
  return p.propose quot.toUInt16 rem.toUInt16

theorem settles_takeTarget (p : C20Pll) (target : Float) :
    (takeTarget h target).Settles p (p.proposal h target) := by
  intro s
  unfold takeTarget proposal
  rw [run_andThen, run_try, run_then]
  rcases (h.requireFrequency target "C20 target").run s with ⟨e | u, s'⟩
  · rfl
  · dsimp only
    rw [run_andThen, run_current]
    dsimp only
    split <;> split <;> rfl

end C20Pll

namespace LinkRatio

def proposal (p : LinkRatio) (target : Float) : Fallible σ LinkRatio := do
  h.requireFrequency target "link M"
  return { p with m := p.m.propose (mFor target) }

theorem settles_takeTarget (p : LinkRatio) (target : Float) :
    (takeTarget h target).Settles p (p.proposal h target) := by
  intro s
  unfold takeTarget proposal
  rw [run_andThen, run_try, run_then]
  rcases (h.requireFrequency target "link M").run s with ⟨e | u, s'⟩ <;> rfl

end LinkRatio

/-! ## Any family -/

namespace Pll

def proposal (p : Pll) (target : Float) : Fallible σ Pll :=
  match p with
  | combo p => combo <$> p.proposal h target
  | dkl p => dkl <$> p.proposal h target
  | c10 p => c10 <$> p.proposal h target
  | c20 p => c20 <$> p.proposal h target
  | dpMn p => dpMn <$> p.proposal h target

theorem settles_takeTarget (p : Pll) (target : Float) :
    (takeTarget h target).Settles p (p.proposal h target) := by
  cases p with
  | combo p => exact (p.settles_takeTarget h target).map combo fun _ => rfl
  | dkl p => exact (p.settles_takeTarget h target).map dkl fun _ => rfl
  | c10 p => exact (p.settles_takeTarget h target).map c10 fun _ => rfl
  | c20 p => exact (p.settles_takeTarget h target).map c20 fun _ => rfl
  | dpMn p => exact (p.settles_takeTarget h target).map dpMn fun _ => rfl

theorem retune_eq (p : Pll) (target : Float) : p.retune h target = p.proposal h target :=
  (p.settles_takeTarget h target).leaving

end Pll

end Retune
