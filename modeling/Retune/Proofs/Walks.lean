import Retune.Proofs.Chains

/-!
# What a walk programs

On plain registers a walk that commits does nothing to them but program
proposals, one in each round. However it ends, the registers hold the last of
them, or what they held at the start if there was none.
-/

namespace Retune

open Relation

variable {σ : Type} {h : Host σ} {st : Station σ} {file : RegisterFile h st}

/-! ## Writing slots again -/

theorem written_again {v : Version} {a : UInt32} :
    ∀ {slots : List (Slot UInt32)} {f g : UInt32 → UInt32},
      (f a = g a ∨ ∃ x ∈ slots, x.addr = a) → written v slots f a = written v slots g a
  | [], f, g, ha => by
    rcases ha with heq | ⟨x, hx, -⟩
    · exact heq
    · cases hx
  | x :: slots, f, g, ha => by
    show written v slots (Function.update f x.addr (x.value v)) a =
      written v slots (Function.update g x.addr (x.value v)) a
    refine written_again ?_
    by_cases hx : x.addr = a
    · left
      rw [hx, Function.update_self, Function.update_self]
    · rcases ha with heq | ⟨y, hy, hya⟩
      · left
        rw [Function.update_of_ne (Ne.symm hx), Function.update_of_ne (Ne.symm hx)]
        exact heq
      · right
        rcases List.mem_cons.mp hy with rfl | hy
        · exact absurd hya hx
        · exact ⟨y, hy, hya⟩

theorem written_over {v v' : Version} {slots slots' : List (Slot UInt32)}
    (haddrs : slots'.map Slot.addr = slots.map Slot.addr) (f : UInt32 → UInt32) :
    written v slots (written v' slots' f) = written v slots f := by
  funext a
  by_cases ha : ∃ x ∈ slots, x.addr = a
  · exact written_again (.inr ha)
  · refine written_again (.inl (written_of_notMem fun x hx hxa => ha ?_))
    have hmem : a ∈ slots.map Slot.addr := by
      rw [← haddrs, ← hxa]
      exact List.mem_map_of_mem hx
    exact List.mem_map.mp hmem

/-! ## Moves -/

def Event.IsMoveOf (p : Pll) (e : Event Pll σ) : Prop :=
  ∃ d s, e = .programmed d .proposed s ∧ SameFound p.slots d.slots

/-- What the registers hold after these moves, the last one in front, when they
held `f` before. -/
def afterMoves : List (Event Pll σ) → (UInt32 → UInt32) → UInt32 → UInt32
  | .programmed d .proposed _ :: _, f => written .proposed d.slots f
  | _, f => f

theorem afterMoves_over {p d : Pll} (hd : SameFound p.slots d.slots) {moves : List (Event Pll σ)}
    (hmoves : ∀ e ∈ moves, e.IsMoveOf p) (f : UInt32 → UInt32) (v : Version) :
    written v d.slots (afterMoves moves f) = written v d.slots f := by
  cases moves with
  | nil => rfl
  | cons e moves =>
    obtain ⟨d', s, rfl, hd'⟩ := hmoves e List.mem_cons_self
    have haddrs : d'.addrs = d.addrs := hd'.addrs_eq.trans hd.addrs_eq.symm
    exact written_over haddrs f

variable (file) in
/-- Where a walk has got that began with the device `p` in `r`. -/
structure Walked (p : Pll) (r : Recorded Pll σ) (moves : List (Event Pll σ)) (d : Pll)
    (r' : Recorded Pll σ) : Prop where
  plain : file.plain r'.world
  isPlain : d.isPlain
  found : SameFound p.slots d.slots
  events : r'.events = moves ++ r.events
  only : ∀ e ∈ moves, e.IsMoveOf p
  registers : file.value r'.world = afterMoves moves (file.value r.world)

variable {p d : Pll} {r r₁ r₂ : Recorded Pll σ} {moves : List (Event Pll σ)}

theorem walked_start (hp : p.isPlain) (hr : file.plain r.world) : Walked file p r [] p r where
  plain := hr
  isPlain := hp
  found := rfl
  events := rfl
  only := nofun
  registers := rfl

theorem Walked.same (hw : Walked file p r moves d r₁) (hs : file.Same r₁.world r₂.world)
    (he : r₂.events = r₁.events) : Walked file p r moves d r₂ where
  plain := hs.1
  isPlain := hw.isPlain
  found := hw.found
  events := he.trans hw.events
  only := hw.only
  registers := hs.2.trans hw.registers

theorem Walked.report (hw : Walked file p r moves d r₁) {n : Notice} (hn : n.isRestored = false) :
    Walked file p r moves d ((st.recorded Pll).report n r₁).2 := by
  rw [recorded_report hn]
  exact hw.same (file.report n hw.plain) rfl

theorem recorded_program (hd : d.isPlain) (v : Version) (hr : file.plain r.world) :
    ∃ s, ((Pll.adjustable h).recorded.program d v).run r =
        (.ok (), ⟨s, .programmed d v r.world :: r.events⟩) ∧
      file.plain s ∧ file.value s = written v d.slots (file.value r.world) := by
  obtain ⟨s, hprogram, hplain, hvalue⟩ := Pll.writes_program file hd v hr
  refine ⟨s, ?_, hplain, hvalue⟩
  show (((d.program h v).run r.world).1,
    (⟨((d.program h v).run r.world).2, _⟩ : Recorded Pll σ)) = _
  rw [hprogram]

theorem Walked.move (hw : Walked file p r moves d r₁) {clock : Float} {d' : Pll}
    (hr : (Pll.adjustable h).recorded.retune d clock r₁ = (.ok d', r₂)) :
    ∃ r₃, ((Pll.adjustable h).recorded.program d' .proposed).run r₂ = (.ok (), r₃) ∧
      Walked file p r (.programmed d' .proposed r₂.world :: moves) d' r₃ := by
  obtain ⟨hrun, hevents⟩ := recorded_retune hr
  have hsame := Pll.same_retune hw.isPlain hw.plain hrun
  obtain ⟨hd', hstep⟩ := Pll.found_retune hw.isPlain clock _ _ _ hrun
  have hfound : SameFound p.slots d'.slots := hstep.trans hw.found
  obtain ⟨s', hprogram, hplain, hvalue⟩ := recorded_program hd' .proposed hsame.1
  refine ⟨_, hprogram, ?_⟩
  constructor
  case plain => exact hplain
  case isPlain => exact hd'
  case found => exact hfound
  case events =>
    rw [hevents, hw.events]
    rfl
  case only => exact List.forall_mem_cons.mpr ⟨⟨d', r₂.world, rfl, hfound⟩, hw.only⟩
  case registers =>
    show file.value s' = written .proposed d'.slots (file.value r.world)
    rw [hvalue, hsame.2, hw.registers, afterMoves_over hfound hw.only]

/-! ## Walks -/

variable {m : Move}

theorem walked_round (hm : m.commit = true) (hw : Walked file p r moves d r₁) (i : Nat)
    (steps : UInt64) (clock : Float) :
    Reaches (fun _ _ => True)
      (m.round (st.recorded Pll).toEnvironment (Pll.adjustable h).recorded.toWalkable i steps
        clock).run d r₁
      (ending (fun _ d r₂ => ∃ e, Walked file p r (e :: moves) d r₂)
        fun _ d r₂ => Walked file p r moves d r₂) := by
  have hrun := m.round_run (st.recorded Pll).toEnvironment (Pll.adjustable h).recorded.toWalkable
    i steps clock d r₁
  have hstart := hw.report (n := WalkNotice.step i steps clock) rfl
  generalize ((st.recorded Pll).report (WalkNotice.step i steps clock) r₁).2 = r₂ at hrun hstart
  rcases hr : ((Pll.adjustable h).recorded.retune d clock).run r₂ with ⟨e | d', r₃⟩ <;>
    simp only [hr] at hrun
  · obtain ⟨hretune, hevents⟩ := recorded_retune hr
    have hrefused := hstart.same (Pll.same_retune hstart.isPlain hstart.plain hretune) hevents
    exact reaches_of_run hrun anywhere (hrefused.report rfl)
  · obtain ⟨r₄, hprogram, hmoved⟩ := hstart.move hr
    simp only [hm, if_true, hprogram] at hrun
    exact reaches_of_run hrun anywhere ⟨_, hmoved⟩

theorem walked_rounds (hm : m.commit = true) (signal : Signal) (plan : StepPlan Float) :
    ∀ (left : Nat) {moves : List (Event Pll σ)} {d : Pll} {r₁ : Recorded Pll σ} (clock : Float),
      Walked file p r moves d r₁ →
      Reaches (fun _ _ => True)
        (m.rounds (st.recorded Pll).toEnvironment (Pll.adjustable h).recorded.toWalkable signal plan
          left clock).run d r₁
        fun x d r₂ => ∃ new, Walked file p r (new ++ moves) d r₂ ∧
          (x = .ok .completed → new.length = left) := by
  intro left
  induction left with
  | zero => exact fun _ hw => reaches_ok ⟨[], hw, fun _ => rfl⟩
  | succ left ih =>
    intro moves d r₁ clock hw
    have hasked : Walked file p r moves d ((st.recorded Pll).stopRequested signal r₁).2 :=
      hw.same (file.stopRequested signal hw.plain) rfl
    unfold Move.rounds
    refine reaches_andThen (reaches_call anywhere ?_)
    simp only [ending]
    split
    -- interrupted: the rounds so far are all there are
    · exact reaches_andThen (reaches_call anywhere
        (reaches_ok ⟨[], hasked.report rfl, fun hx => by cases hx⟩))
    · refine reaches_andThen ((walked_round hm hasked _ _ _).mono ?_)
      intro x d₁ r₂ hround
      cases x with
      | error e => exact ⟨[], hround, fun hx => by cases hx⟩
      | ok u =>
        obtain ⟨e, hmoved⟩ := hround
        -- the rounds to come stand in front of this one
        have hrest {r₃ : Recorded Pll σ} (hw₃ : Walked file p r (e :: moves) d₁ r₃)
            (next : Float) :=
          (ih next hw₃).mono
            (R := fun x d r₄ => ∃ new, Walked file p r (new ++ moves) d r₄ ∧
              (x = .ok .completed → new.length = left + 1))
            fun x d₂ r₄ hrounds => by
              obtain ⟨new, hw₄, hlength⟩ := hrounds
              refine ⟨new ++ [e], ?_, fun hx => ?_⟩
              · rw [List.append_assoc]
                exact hw₄
              · rw [List.length_append, hlength hx]
                rfl
        simp only [ending]
        split
        · have hpaused : Walked file p r (e :: moves) d₁ ((st.recorded Pll).pause m.waitMs r₂).2 :=
            hmoved.same (file.pause m.waitMs hmoved.plain) rfl
          exact reaches_andThen (reaches_call anywhere (hrest hpaused _))
        · exact hrest hmoved _

theorem walked_check (hw : Walked file p r moves d r₁) :
    Walked file p r moves d ((m.check (st.recorded Pll).toEnvironment).run r₁).2 := by
  have hpath := m.check_path (st.recorded Pll).toEnvironment
    (T := fun a b => Walked file p r moves d a → Walked file p r moves d b)
    (fun n _ ha => ha.report (n := .pll n) rfl) r₁
  generalize ((m.check (st.recorded Pll).toEnvironment).run r₁).2 = r₂ at hpath
  induction hpath with
  | refl => exact hw
  | tail _ hstep ih => exact hstep ih

theorem walked_walk (hm : m.commit = true) (hp : p.isPlain) (hr : file.plain r.world)
    (signal : Signal) :
    Reaches (fun _ _ => True)
      (m.walk (st.recorded Pll).toEnvironment (Pll.adjustable h).recorded.toWalkable signal).run p r
      fun x d r' => ∃ moves, Walked file p r moves d r' ∧
        (x = .ok .completed → moves.length = m.plan.steps.toNat) := by
  have hchecked := walked_check (m := m) (walked_start hp hr)
  have hrest {r₁ : Recorded Pll σ} (hw : Walked file p r [] p r₁) :=
    (walked_rounds hm signal m.plan m.plan.steps.toNat m.current hw).mono
      (R := fun x d r' => ∃ moves, Walked file p r moves d r' ∧
        (x = .ok .completed → moves.length = m.plan.steps.toNat))
      fun _ _ _ hrounds => by
        obtain ⟨new, hw', hlength⟩ := hrounds
        rw [List.append_nil] at hw'
        exact ⟨new, hw', hlength⟩
  unfold Move.walk
  refine reaches_andThen (reaches_try anywhere ?_)
  generalize (m.check (st.recorded Pll).toEnvironment).run r = checked at hchecked
  rcases checked with ⟨e | u, r₁⟩
  · exact ⟨[], hchecked, nofun⟩
  · simp only [ending]
    split
    · refine reaches_andThen (reaches_call anywhere (reaches_andThen (reaches_call anywhere ?_)))
      exact hrest ((hchecked.report rfl).report rfl)
    · exact reaches_andThen (reaches_call anywhere (hrest (hchecked.report rfl)))

theorem one_le_steps (m : Move) : 1 ≤ m.plan.steps.toNat := by
  have hbounded (steps : UInt64) (size : Float) :
      1 ≤ (if 1 < steps then (⟨steps, size⟩ : StepPlan Float)
        else .direct m.current m.target).steps.toNat := by
    split
    · next hsteps => exact Nat.le_of_lt (UInt64.lt_iff_toNat_lt.mp hsteps)
    · exact Nat.le_refl 1
  unfold Move.plan StepPlan.ofMove
  split
  · exact Nat.le_refl 1
  · exact hbounded _ _

theorem ne_nil_of_steps (hmoves : moves.length = m.plan.steps.toNat) : moves ≠ [] := by
  rintro rfl
  have hsteps := one_le_steps m
  rw [← hmoves, List.length_nil] at hsteps
  exact absurd hsteps (by decide)

end Retune
