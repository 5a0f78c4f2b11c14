import Retune.Proofs.Projection
import Retune.Pll

/-!
# Rollbacks and armed timers

Every timer that is armed is followed by exactly one rollback before the next
one is armed, whoever takes that rollback. Armed timers and complete rollbacks
alternate, so their numbers differ by the one rollback that is to come.
-/

namespace Retune

variable {δ σ : Type}

/-! ## Milestones -/

inductive Milestone where
  | armed (generation : Nat)
  | rolledBack
  deriving DecidableEq, Repr

def Event.milestone? : Event δ σ → Option Milestone
  | .armed generation _ => some (.armed generation)
  | .restored _ => some .rolledBack
  | _ => none

def milestones (events : List (Event δ σ)) : List Milestone := events.filterMap Event.milestone?

def alternating : Nat → List Milestone
  | 0 => []
  | n + 1 => .rolledBack :: .armed (n + 1) :: alternating n

/-- The milestone that is to come. -/
def Phase.debt (phase : Phase) : List Milestone := if phase.isOwing then [.rolledBack] else []

theorem Phase.debt_of_resting {phase : Phase} (h : phase.isResting) : phase.debt = [] := by
  cases phase <;> first | rfl | exact absurd h Bool.false_ne_true

theorem Phase.debt_of_underway {phase : Phase} (h : phase.isUnderway) : phase.debt = [] := by
  cases phase <;> first | rfl | exact absurd h Bool.false_ne_true

theorem count_rolledBack : ∀ n, (alternating n).count .rolledBack = n
  | 0 => rfl
  | n + 1 => by simp [alternating, count_rolledBack n]

theorem countP_armed : ∀ n, (alternating n).countP (· != .rolledBack) = n
  | 0 => rfl
  | n + 1 => by simp [alternating, countP_armed n]

theorem count_of_timeline {b : Bool} {l : List Milestone} {n : Nat}
    (h : (if b then [.rolledBack] else []) ++ l = alternating n) :
    l.count .rolledBack + (if b then 1 else 0) = n := by
  have hcount := congrArg (List.count .rolledBack) h
  rw [List.count_append, count_rolledBack] at hcount
  rw [← hcount, Nat.add_comm]
  cases b <;> rfl

theorem armed_of_timeline {b : Bool} {l : List Milestone} {n : Nat}
    (h : (if b then [.rolledBack] else []) ++ l = alternating n) :
    l.countP (· != .rolledBack) = n := by
  have hcount := congrArg (List.countP (· != .rolledBack)) h
  rw [List.countP_append, countP_armed] at hcount
  rw [← hcount]
  cases b <;> exact (Nat.zero_add _).symm

def Event.restoresFound : Event δ σ → List (Event δ σ) → Prop
  | .restored _, older => ∃ d s rest, older = .programmed d .found s :: rest
  | _, _ => True

/-! ## Steps -/

/-- The rollbacks so far, and the one to come, are those of the timers armed. -/
structure Accounted (c : Controller δ) (r : Recorded δ σ) : Prop where
  timeline : c.progress.phase.debt ++ milestones r.events = alternating c.progress.generation
  restores : Throughout Event.restoresFound r.events

theorem Accounted.of_eq {c c' : Controller δ} {r r' : Recorded δ σ} (h : Accounted c r)
    (hevents : r'.events = r.events) (hgeneration : c'.progress.generation = c.progress.generation)
    (hdebt : c'.progress.phase.debt = c.progress.phase.debt) : Accounted c' r' := by
  obtain ⟨ht, hr⟩ := h
  constructor
  · rw [hevents, hgeneration, hdebt]
    exact ht
  · rw [hevents]
    exact hr

theorem Accounted.cons {c : Controller δ} {r : Recorded δ σ} (h : Accounted c r) {e : Event δ σ}
    (he : e.milestone? = none) (s : σ) : Accounted c ⟨s, e :: r.events⟩ := by
  obtain ⟨ht, hr⟩ := h
  constructor
  · unfold milestones
    rw [List.filterMap_cons_none he]
    exact ht
  · refine .cons ?_ hr
    cases e with
    | restored s => cases he
    | _ => trivial

theorem accounted_step {st : Station σ} {dev : Adjustable δ σ} {K : δ → Prop} {x : Scope σ}
    (a b : Controller δ × Recorded δ σ)
    (h : Controller.Step (st.recorded δ) dev.recorded K (x.recorded δ) a b)
    (ha : Accounted a.1 a.2) : Accounted b.1 b.2 := by
  cases h with
  | noticed n hn =>
    rw [recorded_report hn]
    exact ha.of_eq rfl rfl rfl
  | asked | paused | elapsed | retargeted => exact ha.of_eq rfl rfl rfl
  | refused clock h => exact ha.of_eq (recorded_retune h).2 rfl rfl
  | tried clock _ h => exact ha.of_eq (recorded_retune h).2 rfl rfl
  | @moved c r clock d r' _ _ h =>
    have ha' : Accounted { c with device := d } r' := ha.of_eq (recorded_retune h).2 rfl rfl
    exact ha'.cons (e := .programmed d .proposed r'.world) rfl _
  | @looked c r a d r' _ _ h =>
    have ha' := ha.cons (e := .captured r.world) rfl r'.world
    exact ha'.of_eq (recorded_capture h).2 rfl rfl
  | @began c r d r' _ hc h =>
    have ha' := ha.cons (e := .captured r.world) rfl r'.world
    exact ha'.of_eq (recorded_capture h).2 rfl (Phase.debt_of_resting hc).symm
  | planned _ _ _ _ hc => exact ha.of_eq rfl rfl (Phase.debt_of_underway hc).symm
  | entered hc => exact ha.of_eq rfl rfl (Phase.debt_of_underway hc).symm
  | @undone c r hc =>
    have ha' : Accounted (c.update .finish) r := ha.of_eq rfl rfl (Phase.debt_of_underway hc).symm
    exact ha'.cons (e := .programmed c.device .found r.world) rfl _
  | finished hc => exact ha.of_eq rfl rfl (by unfold Phase.debt; rw [hc]; rfl)
  | @armed c r delayMs _ _ hc _ h =>
    obtain ⟨ht, hr⟩ := ha
    rw [Phase.debt_of_underway hc] at ht
    -- nothing is owed yet, so the new timer and its rollback come after all the others
    have hnext := congrArg (fun l => .rolledBack :: .armed (c.progress.generation + 1) :: l) ht
    cases h
    exact ⟨hnext, .cons trivial hr⟩
  | taken hc =>
    rw [recorded_disarm]
    exact ha.of_eq rfl rfl (by rw [Controller.isArmed_iff.mp hc]; rfl)
  | restored hc =>
    obtain ⟨ht, hr⟩ := ha
    rw [hc] at ht
    rw [recorded_restore]
    exact ⟨ht, .cons ⟨_, _, _, rfl⟩ (.cons trivial hr)⟩
  | outside f h =>
    obtain ⟨g, -, rfl⟩ := h
    exact ha.of_eq rfl rfl rfl

/-! ## Runs -/

theorem listing_quiet (p : Pll) : ∀ n ∈ p.listing, n.isRestored = false := by
  intro n hn
  cases p with
  | combo p =>
    simp only [Pll.listing, ComboPll.listing, List.mem_cons, List.not_mem_nil, or_false] at hn
    rcases hn with rfl | rfl | rfl <;> rfl
  | dkl p =>
    simp only [Pll.listing, DklPll.listing, List.mem_append, List.mem_map, List.mem_singleton] at hn
    rcases hn with ⟨_, _, rfl⟩ | rfl <;> rfl
  | c10 p =>
    simp only [Pll.listing, C10Pll.listing, List.mem_append, List.mem_map, List.mem_singleton] at hn
    rcases hn with ⟨_, _, rfl⟩ | rfl <;> rfl
  | c20 p =>
    simp only [Pll.listing, C20Pll.listing, List.mem_append, List.mem_map] at hn
    rcases hn with (⟨_, _, rfl⟩ | ⟨_, _, rfl⟩) | ⟨_, _, rfl⟩ <;> rfl
  | dpMn p =>
    simp only [Pll.listing, LinkRatio.listing, List.mem_cons, List.not_mem_nil, or_false] at hn
    rcases hn with rfl | rfl <;> rfl

theorem lasting_true (h : Host σ) : Lasting (Pll.adjustable h) fun _ => True where
  capture _ := trivial
  retune _ _ := trivial
  listing := listing_quiet

theorem Phase.debt_of_settled {K : δ → Prop} {c : Controller δ} (hc : c.Settled K) :
    c.progress.phase.debt = if c.isArmed then [.rolledBack] else [] := by
  by_cases h : c.isArmed
  · rw [if_pos h, Controller.isArmed_iff.mp h]
    rfl
  · rw [if_neg h, Phase.debt_of_resting (hc.resting h)]

theorem expire_of_ne (st : Station σ) (dev : Adjustable δ σ) {generation : Nat} {c : Controller δ}
    (h : ¬ (c.isArmed ∧ generation = c.progress.generation)) (s : σ) :
    Controller.expire st dev generation c s = (((), c), s) := by
  unfold Controller.expire
  rw [run_drop, Controller.rollbackArmed_unwanted]
  intro hg
  obtain ⟨harmed, hg⟩ := Bool.and_eq_true_iff.mp hg
  exact h ⟨harmed, beq_iff_eq.mp hg⟩

theorem cancel_answer (st : Station σ) (dev : Adjustable δ σ) (c : Controller δ) (s : σ) :
    (Controller.cancel st dev c s).1.1 = c.isArmed := by
  unfold Controller.cancel
  rw [Controller.rollbackArmed_answer]
  exact Bool.and_true _

theorem timeline_record (h : Host σ) (st : Station σ) (p : Pll) (signal : Signal)
    (ops : List (Operation σ)) (s : σ) :
    let (c, r) := Operation.record st (Pll.adjustable h) ops (.ofDevice p signal) s
    (if c.isArmed then [.rolledBack] else []) ++ milestones r.events =
        alternating c.progress.generation ∧
      Throughout Event.restoresFound r.events := by
  obtain ⟨hc, htimeline, hrestores⟩ := Operation.record_keeps (s := s) (I := Accounted) st
    (lasting_true h) ops (fun _ _ => accounted_step) (c := .ofDevice p signal) (.inl rfl)
    ⟨rfl, .nil⟩
  rw [Phase.debt_of_settled hc] at htimeline
  exact ⟨htimeline, hrestores⟩

/-- The generation is the number of timers armed, so one of 64 bits is the same for as
many of them. -/
theorem generation_fits (h : Host σ) (st : Station σ) (p : Pll) (signal : Signal)
    (ops : List (Operation σ)) (s : σ) :
    let (c, r) := Operation.record st (Pll.adjustable h) ops (.ofDevice p signal) s
    let armed := (milestones r.events).countP (· != .rolledBack)
    c.progress.generation = armed ∧
      (armed < UInt64.size → (UInt64.ofNat c.progress.generation).toNat = c.progress.generation) := by
  have harmed := armed_of_timeline (timeline_record h st p signal ops s).1
  refine ⟨harmed.symm, fun hfew => UInt64.toNat_ofNat_of_lt' ?_⟩
  rw [← harmed]
  exact hfew

/-- Over any run of a controller, armed timers and complete rollbacks
alternate, a late timer changes nothing, and a cancel answers whether there was
anything to roll back. -/
theorem one_rollback_each (h : Host σ) (st : Station σ) (p : Pll) (signal : Signal)
    (ops : List (Operation σ)) (s : σ) :
    let dev := Pll.adjustable h
    let (c, r) := Operation.record st dev ops (.ofDevice p signal) s
    Operation.leave st dev ops (.ofDevice p signal) s = (c, r.world) ∧
      (milestones r.events).count .rolledBack + (if c.isArmed then 1 else 0) =
        c.progress.generation ∧
      (if c.isArmed then [.rolledBack] else []) ++ milestones r.events =
        alternating c.progress.generation ∧
      Throughout Event.restoresFound r.events ∧
      (∀ generation, ¬ (c.isArmed ∧ generation = c.progress.generation) →
        ∀ s, Controller.expire st dev generation c s = (((), c), s)) ∧
      ∀ s, (Controller.cancel st dev c s).1.1 = c.isArmed := by
  intro dev
  have hrun := Operation.leave_eq_record st dev ops (.ofDevice p signal) s
  obtain ⟨htimeline, hrestores⟩ := timeline_record h st p signal ops s
  exact ⟨hrun, count_of_timeline htimeline, htimeline, hrestores, fun _ h => expire_of_ne st dev h,
    cancel_answer st dev _⟩

end Retune
