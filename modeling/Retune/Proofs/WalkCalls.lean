import Retune.Proofs.Walks

/-!
# The calls of a walk

A traced walk writes down each look at the stop signal and each call of the
device. A valid walk makes whole rounds until one is cut short by the signal or
by a call that fails, whatever the device and the signal are like; an invalid
one makes no call at all.
-/

namespace Retune

/-! ## Traced walks -/

inductive Call where
  | retune (clock : Float)
  | program (v : Version)
  | capture

/-- What a walk does besides reporting and waiting. -/
inductive Act where
  | asked (stop : Bool)
  | called (c : Call) (failure? : Option Failure)

def Act.call? : Act → Option Call
  | asked _ => none
  | called c _ => some c

/-- How a walk ends that makes this act its last; most acts end none. -/
def Act.ends? : Act → Option (Except Failure WalkEnd)
  | asked true => some (.ok .interrupted)
  | called _ (some e) => some (.error e)
  | _ => none

structure Traced (σ : Type) where
  world : σ
  acts : List Act

section
variable {α δ σ : Type}

def Traced.silently (x : StateM σ α) : StateM (Traced σ) α := fun r =>
  ((x r.world).1, { r with world := (x r.world).2 })

def Traced.noting (act : α → Act) (x : StateM σ α) : StateM (Traced σ) α := fun r =>
  ((x r.world).1, ⟨(x r.world).2, r.acts ++ [act (x r.world).1]⟩)

def failure? : Except Failure α → Option Failure
  | .ok _ => none
  | .error e => some e

def Station.traced (st : Station σ) : Station (Traced σ) where
  stopRequested signal := Traced.noting .asked (st.stopRequested signal)
  report n := Traced.silently (st.report n)
  pause ms := Traced.silently (st.pause ms)
  armTimer delayMs generation := Traced.silently (st.armTimer delayMs generation)
  cancelTimer id := Traced.silently (st.cancelTimer id)
  elapse := Traced.silently st.elapse

def Adjustable.traced (dev : Adjustable δ σ) : Adjustable δ (Traced σ) where
  retune d clock := ExceptT.mk
    (Traced.noting (fun r => .called (.retune clock) (failure? r)) (dev.retune d clock).run)
  program d v := ExceptT.mk
    (Traced.noting (fun r => .called (.program v) (failure? r)) (dev.program d v).run)
  capture := ExceptT.mk fun d =>
    Traced.noting (fun r => .called .capture (failure? r.1)) (dev.capture.run d)
  captured := dev.captured
  clock := dev.clock
  listing := dev.listing

theorem faithful_traced (st : Station σ) (dev : Adjustable δ σ) :
    Faithful Traced.world st.traced dev.traced st dev where
  stopRequested _ _ := rfl
  report _ _ := rfl
  pause _ _ := rfl
  armTimer _ _ _ := rfl
  cancelTimer _ _ := rfl
  elapse _ := rfl
  retune _ _ _ := rfl
  program _ _ _ := rfl
  capture _ _ := rfl
  clock := rfl
  listing := rfl

end

namespace Move
variable (m : Move)

/-! ## What a walk should call -/

/-- Moves from and to a frequency with a shift that is a number and not below
zero. -/
def IsValid : Prop :=
  Scalar.isFrequency m.current = true ∧ Scalar.isFrequency m.target = true ∧
    Scalar.isNumber m.shift = true ∧ ¬ m.shift < 0.0

def advanced : Nat → Float
  | 0 => m.current
  | i + 1 => advanced i + m.plan.size

def clockAt (i : Nat) : Float :=
  if i = m.plan.steps.toNat then m.target else m.advanced i

def roundCalls (i : Nat) : List Call :=
  .retune (m.clockAt i) :: if m.commit then [.program .proposed] else []

def calls : (rounds : Nat) → List Call
  | 0 => []
  | i + 1 => calls i ++ m.roundCalls (i + 1)

def made : (rounds : Nat) → List Act
  | 0 => []
  | i + 1 => made i ++ .asked false :: (m.roundCalls (i + 1)).map (.called · none)

theorem made_calls : ∀ i, (m.made i).filterMap Act.call? = m.calls i
  | 0 => rfl
  | i + 1 => by
    have hround : ((m.roundCalls (i + 1)).map (Act.called · none)).filterMap Act.call? =
        m.roundCalls (i + 1) := by
      rw [List.filterMap_map]
      exact List.filterMap_some
    simp only [made, calls, List.filterMap_append, List.filterMap_cons, Act.call?, made_calls i,
      hround]

theorem calls_prefix {i j : Nat} (hij : i ≤ j) : m.calls i <+: m.calls j := by
  induction hij with
  | refl => exact List.prefix_rfl
  | step _ ih => exact ih.trans (List.prefix_append _ _)

theorem made_ends {a : Act} : ∀ {i : Nat}, a ∈ m.made i → a.ends? = none
  | 0, ha => by cases ha
  | i + 1, ha => by
    rcases List.mem_append.mp ha with ha | ha
    · exact made_ends ha
    · rcases List.mem_cons.mp ha with rfl | ha
      · rfl
      · obtain ⟨c, -, rfl⟩ := List.mem_map.mp ha
        rfl

/-! ## How a walk can go -/

/-- How a valid walk ends, and what it did until then. -/
inductive Course : Except Failure WalkEnd → List Act → Prop where
  | completed : Course (.ok .completed) (m.made m.plan.steps.toNat)
  | stopped {i : Nat} (hi : i < m.plan.steps.toNat) :
    Course (.ok .interrupted) (m.made i ++ [.asked true])
  | notRetuned {i : Nat} (hi : i < m.plan.steps.toNat) (e : Failure) :
    Course (.error e)
      (m.made i ++ [.asked false, .called (.retune (m.clockAt (i + 1))) (some e)])
  | notProgrammed {i : Nat} (hi : i < m.plan.steps.toNat) (hcommit : m.commit = true)
      (e : Failure) :
    Course (.error e) (m.made i ++ [.asked false, .called (.retune (m.clockAt (i + 1))) none,
      .called (.program .proposed) (some e)])

variable {m} {δ σ : Type} {st : Station σ} {dev : Adjustable δ σ} {d : δ} {r r' : Traced σ}

theorem acts_of_retune {clock : Float} {x : Except Failure δ}
    (h : (dev.traced.retune d clock).run r = (x, r')) :
    r'.acts = r.acts ++ [.called (.retune clock) (failure? x)] := by
  cases h
  rfl

theorem acts_of_program {v : Version} {x : Except Failure Unit}
    (h : (dev.traced.program d v).run r = (x, r')) :
    r'.acts = r.acts ++ [.called (.program v) (failure? x)] := by
  cases h
  rfl

theorem traced_round {i : Nat} (hi : i < m.plan.steps.toNat) (number : Nat)
    (hr : r.acts = m.made i ++ [.asked false]) :
    Reaches (fun _ _ => True)
      (m.round st.traced.toEnvironment dev.traced.toWalkable number m.plan.steps
        (m.clockAt (i + 1))).run d r
      (ending (fun _ _ r => r.acts = m.made (i + 1)) fun e _ r => m.Course (.error e) r.acts) := by
  have hrun := m.round_run st.traced.toEnvironment dev.traced.toWalkable number m.plan.steps
    (m.clockAt (i + 1)) d r
  have hreported : (st.traced.report (WalkNotice.step number m.plan.steps (m.clockAt (i + 1))) r).2.acts
    = m.made i ++ [.asked false] := hr
  generalize (st.traced.report (WalkNotice.step number m.plan.steps (m.clockAt (i + 1))) r).2 = r₁
    at hrun hreported
  rcases hretune : (dev.traced.retune d (m.clockAt (i + 1))).run r₁ with ⟨e | d', r₂⟩ <;>
    simp only [hretune] at hrun <;> have hretuned := acts_of_retune hretune <;>
    rw [hreported, List.append_assoc] at hretuned
  · refine reaches_of_run hrun anywhere ?_
    show m.Course (.error e) r₂.acts
    rw [hretuned]
    exact .notRetuned hi e
  · cases hcommit : m.commit with
    | false =>
      simp only [hcommit, Bool.false_eq_true, if_false] at hrun
      refine reaches_of_run hrun anywhere ?_
      show r₂.acts = m.made (i + 1)
      rw [hretuned]
      simp [made, roundCalls, hcommit, failure?]
    | true =>
      simp only [hcommit, if_true] at hrun
      rcases hprogram : (dev.traced.program d' .proposed).run r₂ with ⟨e | u, r₃⟩ <;>
        simp only [hprogram] at hrun <;> have hprogrammed := acts_of_program hprogram <;>
        rw [hretuned, List.append_assoc] at hprogrammed
      · refine reaches_of_run hrun anywhere ?_
        show m.Course (.error e) r₃.acts
        rw [hprogrammed]
        exact .notProgrammed hi hcommit e
      · refine reaches_of_run hrun anywhere ?_
        show r₃.acts = m.made (i + 1)
        rw [hprogrammed]
        simp [made, roundCalls, hcommit, failure?]

theorem traced_rounds (signal : Signal) :
    ∀ (left : Nat) {i : Nat} {d : δ} {r : Traced σ}, i + left = m.plan.steps.toNat →
      r.acts = m.made i →
      Reaches (fun _ _ => True)
        (m.rounds st.traced.toEnvironment dev.traced.toWalkable signal m.plan left
          (m.advanced i)).run d r
        fun x _ r => m.Course x r.acts := by
  intro left
  induction left with
  | zero =>
    intro i d r hi hr
    refine reaches_ok ?_
    rw [hr, show i = m.plan.steps.toNat from hi]
    exact .completed
  | succ left ih =>
    intro i d r hi hr
    have hlt : i < m.plan.steps.toNat := by omega
    have hnext : (if left = 0 then m.target else m.advanced i + m.plan.size) =
        m.clockAt (i + 1) := by
      unfold clockAt
      by_cases hleft : left = 0
      · rw [if_pos hleft, if_pos (by omega)]
      · rw [if_neg hleft, if_neg (by omega)]
        rfl
    have hasked : (st.traced.stopRequested signal r).2.acts =
        m.made i ++ [.asked (st.traced.stopRequested signal r).1] := by
      rw [← hr]
      rfl
    unfold Move.rounds
    rw [hnext]
    refine reaches_andThen (reaches_call anywhere ?_)
    generalize st.traced.stopRequested signal r = answer at hasked
    obtain ⟨stop, r₁⟩ := answer
    cases stop with
    | true =>
      refine reaches_andThen (reaches_call anywhere (reaches_ok ?_))
      show m.Course (.ok .interrupted) r₁.acts
      rw [hasked]
      exact .stopped hlt
    | false =>
      refine reaches_andThen ((traced_round hlt _ hasked).mono ?_)
      intro x d₂ r₂ hround
      cases x with
      | error e => exact hround
      | ok u =>
        simp only [ending]
        by_cases hleft : left = 0
        -- the last round was at the target, which is not where the steps add up to
        · subst hleft
          refine reaches_ok ?_
          rw [hround, hi]
          exact .completed
        · rw [if_pos hleft]
          have hclock : m.clockAt (i + 1) = m.advanced (i + 1) := if_neg (by omega)
          rw [hclock]
          exact reaches_andThen (reaches_call anywhere (ih (by omega) hround))

variable (m st) in
theorem traced_check (r : Traced σ) :
    m.IsValid ∧ (m.check st.traced.toEnvironment).run r = (.ok (), r) ∨
      ¬ m.IsValid ∧ ∃ what s,
        (m.check st.traced.toEnvironment).run r = (.error (.invalidArgument what), ⟨s, r.acts⟩) := by
  simp only [Move.check, run_then, Environment.requireFrequency_run, Environment.requireShift_run,
    IsValid]
  by_cases hcurrent : Scalar.isFrequency m.current
  · by_cases htarget : Scalar.isFrequency m.target
    · by_cases hshift : Scalar.isNumber m.shift = true ∧ ¬ m.shift < 0.0
      · left
        simp [hcurrent, htarget, hshift]
      · right
        refine ⟨fun h => hshift h.2.2, "shift",
          (st.report (PllNotice.invalidShift m.shift) r.world).2, ?_⟩
        have hbad : (!Scalar.isNumber m.shift || decide (m.shift < 0.0)) = true := by
          by_cases hnumber : Scalar.isNumber m.shift = true
          · simp [hnumber, Classical.not_not.mp (not_and.mp hshift hnumber)]
          · simp [hnumber]
        simp only [hcurrent, htarget, hbad, if_true]
        rfl
    · right
      refine ⟨fun h => htarget h.2.1, "target PLL clock",
        (st.report (PllNotice.invalidFrequency "target PLL clock" m.target) r.world).2, ?_⟩
      simp only [hcurrent, htarget, if_true]
      rfl
  · right
    refine ⟨fun h => hcurrent h.1, "current PLL clock",
      (st.report (PllNotice.invalidFrequency "current PLL clock" m.current) r.world).2, ?_⟩
    simp only [hcurrent]
    rfl

theorem traced_walk (signal : Signal) (s : σ) :
    Reaches (fun _ _ => True)
      (m.walk st.traced.toEnvironment dev.traced.toWalkable signal).run d ⟨s, []⟩
      fun x _ r => m.IsValid ∧ m.Course x r.acts ∨
        ¬ m.IsValid ∧ r.acts = [] ∧ ∃ what, x = .error (.invalidArgument what) := by
  unfold Move.walk
  refine reaches_andThen (reaches_try anywhere ?_)
  rcases traced_check m st ⟨s, []⟩ with ⟨hvalid, hrun⟩ | ⟨hvalid, what, s', hrun⟩ <;>
    rw [hrun]
  · have hrest {r : Traced σ} (hr : r.acts = []) : Reaches (fun _ _ => True)
        (m.rounds st.traced.toEnvironment dev.traced.toWalkable signal m.plan m.plan.steps.toNat
          m.current).run d r fun x _ r => m.Course x r.acts :=
      traced_rounds signal m.plan.steps.toNat (Nat.zero_add _) hr
    have hcourse {r : Traced σ} (hr : r.acts = []) := (hrest hr).mono
      (R := fun x _ r => m.IsValid ∧ m.Course x r.acts ∨
        ¬ m.IsValid ∧ r.acts = [] ∧ ∃ what, x = .error (.invalidArgument what))
      fun _ _ _ h => .inl ⟨hvalid, h⟩
    simp only [ending]
    split
    · exact reaches_andThen (reaches_call anywhere (reaches_andThen (reaches_call anywhere
        (hcourse rfl))))
    · exact reaches_andThen (reaches_call anywhere (hcourse rfl))
  · exact .inr ⟨hvalid, rfl, what, rfl⟩

/-! ## What a course says -/

namespace Course
variable {x : Except Failure WalkEnd} {acts : List Act} (h : m.Course x acts)
include h

theorem calls_prefix : acts.filterMap Act.call? <+: m.calls m.plan.steps.toNat := by
  have hrounds {i : Nat} (hi : i < m.plan.steps.toNat) (own : List Call)
      (hown : own <+: m.roundCalls (i + 1)) : m.calls i ++ own <+: m.calls m.plan.steps.toNat :=
    ((List.prefix_append_right_inj _).mpr hown).trans (m.calls_prefix hi)
  cases h with
  | completed =>
    rewrite [made_calls]
    exact List.prefix_rfl
  | stopped hi =>
    rw [List.filterMap_append, made_calls]
    exact hrounds hi [] List.nil_prefix
  | notRetuned hi e =>
    rw [List.filterMap_append, made_calls]
    exact hrounds hi [_] (List.prefix_append [_] _)
  | notProgrammed hi hcommit e =>
    rw [List.filterMap_append, made_calls]
    refine hrounds hi [_, _] ?_
    unfold roundCalls
    rewrite [if_pos hcommit]
    exact List.prefix_rfl

theorem ending_act :
    (x = .ok .completed ∧ ∀ a ∈ acts, a.ends? = none) ∨
      ∃ before last, acts = before ++ [last] ∧ (∀ a ∈ before, a.ends? = none) ∧
        last.ends? = some x := by
  cases h with
  | completed => exact .inl ⟨rfl, fun a ha => m.made_ends ha⟩
  | stopped hi => exact .inr ⟨_, _, rfl, fun a ha => m.made_ends ha, rfl⟩
  | @notRetuned i hi e =>
    refine .inr ⟨m.made i ++ [.asked false], .called (.retune (m.clockAt (i + 1))) (some e),
      by simp, ?_, rfl⟩
    intro a ha
    rcases List.mem_append.mp ha with ha | ha
    · exact m.made_ends ha
    · rw [List.mem_singleton.mp ha]
      rfl
  | @notProgrammed i hi hcommit e =>
    refine .inr ⟨m.made i ++ [.asked false, .called (.retune (m.clockAt (i + 1))) none],
      .called (.program .proposed) (some e), by simp, ?_, rfl⟩
    intro a ha
    rcases List.mem_append.mp ha with ha | ha
    · exact m.made_ends ha
    · rcases List.mem_pair.mp ha with rfl | rfl <;> rfl

theorem ends_last {before after : List Act} {a : Act} {y : Except Failure WalkEnd}
    (hacts : acts = before ++ a :: after) (ha : a.ends? = some y) : x = y ∧ after = [] := by
  have hmem : a ∈ acts := by
    rw [hacts]
    exact List.mem_append_right _ List.mem_cons_self
  rcases h.ending_act with ⟨-, hquiet⟩ | ⟨before', last, hacts', hquiet, hlast⟩
  · rw [hquiet a hmem] at ha
    cases ha
  · rcases List.eq_nil_or_concat after with rfl | ⟨between, z, rfl⟩
    · obtain ⟨-, hlasts⟩ := List.append_inj' (hacts.symm.trans hacts') rfl
      obtain rfl : a = last := List.head_eq_of_cons_eq hlasts
      exact ⟨Option.some.inj (hlast.symm.trans ha), rfl⟩
    -- an act that ends a walk cannot stand before the last
    · have hsplit : before ++ a :: between ++ [z] = before' ++ [last] := by
        rw [← hacts', hacts, List.concat_eq_append, List.append_assoc, List.cons_append]
      obtain ⟨hbefore, -⟩ := List.append_inj' hsplit rfl
      have hmem' : a ∈ before' := by
        rw [← hbefore]
        exact List.mem_append_right _ List.mem_cons_self
      rw [hquiet a hmem'] at ha
      cases ha

theorem end_of_mem {a : Act} {y : Except Failure WalkEnd} (hmem : a ∈ acts)
    (ha : a.ends? = some y) : x = y := by
  obtain ⟨before, after, hacts⟩ := List.append_of_mem hmem
  exact (h.ends_last hacts ha).1

end Course

/-- What the acts of a valid walk say about its end. -/
structure Account (m : Move) (x : Except Failure WalkEnd) (acts : List Act) : Prop where
  calls : acts.filterMap Act.call? <+: m.calls m.plan.steps.toNat
  completed : x = .ok .completed ↔ acts = m.made m.plan.steps.toNat
  interrupted : x = .ok .interrupted ↔ .asked true ∈ acts
  interruptedAt : x = .ok .interrupted →
    ∃ i < m.plan.steps.toNat, acts = m.made i ++ [.asked true]
  failed : ∀ e, x = .error e ↔ ∃ c, .called c (some e) ∈ acts
  failedLast : ∀ before c e after, acts = before ++ .called c (some e) :: after → after = []

theorem Course.account {x : Except Failure WalkEnd} {acts : List Act} (h : m.Course x acts) :
    m.Account x acts := by
  constructor
  case calls => exact h.calls_prefix
  case completed =>
    constructor
    · rintro rfl
      cases h with
      | completed => rfl
    · intro hacts
      rcases h.ending_act with ⟨hx, -⟩ | ⟨before, last, hacts', -, hlast⟩
      · exact hx
      · have hmem : last ∈ m.made m.plan.steps.toNat := by
          rw [← hacts, hacts']
          exact List.mem_append_right _ List.mem_cons_self
        rw [m.made_ends hmem] at hlast
        cases hlast
  case interrupted =>
    constructor
    · rintro rfl
      cases h with
      | stopped hi => exact List.mem_append_right _ List.mem_cons_self
    · exact fun hmem => h.end_of_mem hmem rfl
  case interruptedAt =>
    rintro rfl
    cases h with
    | stopped hi => exact ⟨_, hi, rfl⟩
  case failed =>
    intro e
    constructor
    · rintro rfl
      cases h with
      | @notRetuned i hi =>
        exact ⟨.retune (m.clockAt (i + 1)), List.mem_append_right _ (by simp)⟩
      | notProgrammed hi hcommit => exact ⟨.program .proposed, List.mem_append_right _ (by simp)⟩
    · rintro ⟨c, hmem⟩
      exact h.end_of_mem hmem rfl
  case failedLast =>
    intro before c e after hacts
    exact (h.ends_last hacts rfl).2

/-- What a walk does, whatever the device and the signal are like: the calls it
makes begin the calls of its plan, and its end tells how far it got. -/
theorem walk_calls (st : Station σ) (dev : Adjustable δ σ) (signal : Signal) (m : Move) (d : δ)
    (s : σ) :
    let traced := (m.walk st.traced.toEnvironment dev.traced.toWalkable signal).run d ⟨s, []⟩
    (m.walk st.toEnvironment dev.toWalkable signal).run d s = (traced.1, traced.2.world) ∧
      (m.IsValid → 1 ≤ m.plan.steps.toNat ∧ m.Account traced.1.1 traced.2.acts) ∧
      (¬ m.IsValid → traced.2.acts = [] ∧ ∃ what, traced.1.1 = .error (.invalidArgument what)) := by
  intro traced
  refine ⟨(faithful_traced st dev).move m signal d ⟨s, []⟩, ?_⟩
  have hwalk : Reaches (fun _ _ => True)
      (m.walk st.traced.toEnvironment dev.traced.toWalkable signal).run d ⟨s, []⟩ _ :=
    traced_walk signal s
  rcases hwalk.post with ⟨hvalid, hcourse⟩ | ⟨hvalid, hacts, what, hx⟩
  · exact ⟨fun _ => ⟨one_le_steps m, hcourse.account⟩, fun h => absurd hvalid h⟩
  · exact ⟨fun h => absurd h hvalid, fun _ => ⟨hacts, what, hx⟩⟩

theorem walk_calls_link :
    let m : Move := ⟨100.0, 101.5, 1.0, 0, true⟩
    let st := Session.station 0 .byHand
    let dev := Pll.adjustable Bench.host
    let traced := (m.walk st.traced.toEnvironment dev.traced.toWalkable .session).run
      (.dpMn (.ofPipe 0)) ⟨Bench.ofLink, []⟩
    m.IsValid ∧ m.plan.steps = 2 ∧ m.Account traced.1.1 traced.2.acts := by
  dsimp only
  have hvalid : (⟨100.0, 101.5, 1.0, 0, true⟩ : Move).IsValid := by
    unfold IsValid
    decide +kernel
  obtain ⟨-, haccount, -⟩ := walk_calls (Session.station 0 .byHand) (Pll.adjustable Bench.host)
    .session ⟨100.0, 101.5, 1.0, 0, true⟩ (.dpMn (.ofPipe 0)) Bench.ofLink
  exact ⟨hvalid, by decide +kernel, (haccount hvalid).2⟩

end Move

end Retune
