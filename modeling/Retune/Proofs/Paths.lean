import Mathlib.Logic.Relation
import Retune.Host

/-!
# Programs as paths

A program leads from the state it starts in to the state it leaves by way of
steps. Paths are put together along the structure of the program, so that what
every step keeps, the program keeps.
-/

namespace Retune

open Relation

section
variable {γ σ α β : Type}

/-! ## How programs run -/

theorem run_bind (x : StateT γ (StateM σ) α) (f : α → StateT γ (StateM σ) β) (c : γ) (s : σ) :
    (x >>= f) c s = f (x c s).1.1 (x c s).1.2 (x c s).2 := rfl

theorem run_get (c : γ) (s : σ) : (get : StateT γ (StateM σ) γ) c s = ((c, c), s) := rfl

theorem run_drop (x : StateT γ (StateM σ) α) (c : γ) (s : σ) :
    discard x c s = (((), (x c s).1.2), (x c s).2) := rfl

theorem run_then (x : Fallible σ α) (f : α → Fallible σ β) (s : σ) :
    (x >>= f).run s =
      match x.run s with
      | (.ok a, s) => (f a).run s
      | (.error e, s) => (.error e, s) := by
  unfold ExceptT.run
  simp only [bind, ExceptT.bind, ExceptT.mk, StateT.bind, ExceptT.bindCont]
  rcases x s with ⟨e | a, s'⟩ <;> rfl

theorem map_run (f : α → β) (x : Fallible σ α) (s : σ) :
    (f <$> x).run s = ((x.run s).1.map f, (x.run s).2) := by
  show ExceptT.map f x s = _
  simp only [ExceptT.map, ExceptT.mk, bind, StateT.bind, ExceptT.run]
  rcases x s with ⟨e | a, s'⟩ <;> rfl

theorem run_andThen (x : Holding γ σ α) (f : α → Holding γ σ β) (c : γ) (s : σ) :
    (x >>= f).run c s =
      match x.run c s with
      | ((.ok a, c), s) => (f a).run c s
      | ((.error e, c), s) => ((.error e, c), s) := by
  unfold ExceptT.run
  simp only [bind, ExceptT.bind, ExceptT.mk, StateT.bind, ExceptT.bindCont]
  rcases x c s with ⟨⟨e | a, c'⟩, s'⟩ <;> rfl

theorem run_current (c : γ) (s : σ) : (get : Holding γ σ γ).run c s = ((.ok c, c), s) := rfl

theorem run_replace (d c : γ) (s : σ) :
    (set d : Holding γ σ PUnit).run c s = ((.ok ⟨⟩, d), s) := rfl

theorem run_change (f : γ → γ) (c : γ) (s : σ) :
    (modify f : Holding γ σ PUnit).run c s = ((.ok ⟨⟩, f c), s) := rfl

theorem run_call (x : StateM σ α) (c : γ) (s : σ) :
    (liftM x : Holding γ σ α).run c s = ((.ok (x s).1, c), (x s).2) := rfl

theorem run_try (x : Fallible σ α) (c : γ) (s : σ) :
    (liftM x : Holding γ σ α).run c s = (((x.run s).1, c), (x.run s).2) := rfl

theorem run_outcome (x : Holding γ σ α) (c : γ) (s : σ) :
    x.outcome.run c s = ((.ok (x.run c s).1.1, (x.run c s).1.2), (x.run c s).2) := rfl

theorem run_discard (x : Holding γ σ α) (c : γ) (s : σ) :
    (discard x).run c s =
      match x.run c s with
      | ((.ok _, c), s) => ((.ok ⟨⟩, c), s)
      | ((.error e, c), s) => ((.error e, c), s) := by
  show ExceptT.map (fun _ => PUnit.unit) x c s = match x c s with
    | ((.ok _, c), s) => ((.ok ⟨⟩, c), s)
    | ((.error e, c), s) => ((.error e, c), s)
  simp only [ExceptT.map, ExceptT.mk, bind, StateT.bind]
  rcases x c s with ⟨⟨e | a, c'⟩, s'⟩ <;> rfl

theorem Environment.reportingFailure_run (env : Environment σ) (n : Failure → Notice)
    (x : Fallible σ α) (s : σ) :
    (env.reportingFailure n x).run s =
      match x.run s with
      | (.ok a, s) => (.ok a, s)
      | (.error e, s) => (.error e, (env.report (n e) s).2) := by
  simp only [Environment.reportingFailure, tryCatch, tryCatchThe, MonadExceptOf.tryCatch,
    ExceptT.tryCatch, ExceptT.mk, ExceptT.run, bind, StateT.bind]
  rcases x s with ⟨e | a, s'⟩ <;> rfl

theorem Environment.requireFrequency_run (env : Environment σ) (x : Float) (what : String) (s : σ) :
    (env.requireFrequency x what).run s =
      if Scalar.isFrequency x then (.ok (), s)
      else (.error (.invalidArgument what), (env.report (PllNotice.invalidFrequency what x) s).2) := by
  unfold Environment.requireFrequency
  split <;> rfl

theorem Environment.requireShift_run (env : Environment σ) (shift : Float) (s : σ) :
    (env.requireShift shift).run s =
      if !Scalar.isNumber shift || decide (shift < 0.0) then
        (.error (.invalidArgument "shift"), (env.report (PllNotice.invalidShift shift) s).2)
      else (.ok (), s) := by
  unfold Environment.requireShift
  split <;> rfl

end

/-! ## Paths -/

/-- From `(c, s)` the program `x` goes by steps of `T`, and what it answers and
leaves satisfies `Q`. -/
structure Reaches {γ σ α : Type} (T : γ × σ → γ × σ → Prop) (x : StateT γ (StateM σ) α) (c : γ)
    (s : σ) (Q : α → γ → σ → Prop) : Prop where
  path : ReflTransGen T (c, s) ((x c s).1.2, (x c s).2)
  post : Q (x c s).1.1 (x c s).1.2 (x c s).2

/-- What holds after a program that may fail, for each way to end. -/
def ending {γ σ α : Type} (Q : α → γ → σ → Prop) (R : Failure → γ → σ → Prop) :
    Except Failure α → γ → σ → Prop
  | .ok a => Q a
  | .error e => R e

section
variable {γ σ α β : Type} {T : γ × σ → γ × σ → Prop} {c : γ} {s : σ}

theorem Reaches.mono {x : StateT γ (StateM σ) α} {Q R : α → γ → σ → Prop}
    (h : Reaches T x c s Q) (hQ : ∀ a c s, Q a c s → R a c s) : Reaches T x c s R :=
  ⟨h.path, hQ _ _ _ h.post⟩

theorem path_keeps {I : γ × σ → Prop} (hT : ∀ a b, T a b → I a → I b) {a b : γ × σ}
    (h : ReflTransGen T a b) (hI : I a) : I b := by
  induction h with
  | refl => exact hI
  | tail _ hab ih => exact hT _ _ hab ih

theorem Reaches.keeps {x : StateT γ (StateM σ) α} {Q : α → γ → σ → Prop} {I : γ × σ → Prop}
    (h : Reaches T x c s Q) (hT : ∀ a b, T a b → I a → I b) (hI : I (c, s)) :
    I ((x c s).1.2, (x c s).2) :=
  path_keeps hT h.path hI

theorem Reaches.keeping {x : StateT γ (StateM σ) α} {Q : α → γ → σ → Prop} {I : γ × σ → Prop}
    (h : Reaches T x c s Q) (hT : ∀ a b, T a b → I a → I b) (hI : I (c, s)) :
    Reaches (fun _ _ => True) x c s fun a c s => Q a c s ∧ I (c, s) :=
  ⟨.single trivial, h.post, h.keeps hT hI⟩

theorem reaches_of_run {x : StateT γ (StateM σ) α} {r : (α × γ) × σ} {Q : α → γ → σ → Prop}
    (h : x c s = r) (hT : ReflTransGen T (c, s) (r.1.2, r.2)) (hQ : Q r.1.1 r.1.2 r.2) :
    Reaches T x c s Q := by
  subst h; exact ⟨hT, hQ⟩

theorem reaches_via {x y : StateT γ (StateM σ) α} {c' : γ} {s' : σ} {Q : α → γ → σ → Prop}
    (h : x c s = y c' s') (hT : ReflTransGen T (c, s) (c', s')) (hy : Reaches T y c' s' Q) :
    Reaches T x c s Q :=
  reaches_of_run h (hT.trans hy.path) hy.post

theorem reaches_pure {a : α} {Q : α → γ → σ → Prop} (h : Q a c s) : Reaches T (pure a) c s Q :=
  ⟨.refl, h⟩

theorem reaches_bind {x : StateT γ (StateM σ) α} {f : α → StateT γ (StateM σ) β}
    {Q : β → γ → σ → Prop} (h : Reaches T x c s fun a c s => Reaches T (f a) c s Q) :
    Reaches T (x >>= f) c s Q :=
  ⟨h.path.trans h.post.path, h.post.post⟩

theorem reaches_get {Q : γ → γ → σ → Prop} (h : Q c c s) : Reaches T get c s Q := ⟨.refl, h⟩

theorem reaches_lift {x : StateM σ α} {Q : α → γ → σ → Prop}
    (hT : ReflTransGen T (c, s) (c, (x s).2)) (h : Q (x s).1 c (x s).2) :
    Reaches T (liftM x) c s Q :=
  ⟨hT, h⟩

theorem reaches_discard {x : StateT γ (StateM σ) α} {Q : PUnit → γ → σ → Prop}
    (h : Reaches T x c s fun _ c s => Q ⟨⟩ c s) : Reaches T (discard x) c s Q :=
  ⟨h.path, h.post⟩

/-! ## Paths of programs that may fail -/

theorem reaches_ok {a : α} {Q : Except Failure α → γ → σ → Prop} (h : Q (.ok a) c s) :
    Reaches T (pure a : Holding γ σ α).run c s Q :=
  ⟨.refl, h⟩

theorem reaches_throw {e : Failure} {Q : Except Failure α → γ → σ → Prop} (h : Q (.error e) c s) :
    Reaches T (throw e : Holding γ σ α).run c s Q :=
  ⟨.refl, h⟩

theorem reaches_ofExcept {r : Except Failure α} {Q : Except Failure α → γ → σ → Prop}
    (h : Q r c s) : Reaches T (MonadExcept.ofExcept r : Holding γ σ α).run c s Q := by
  cases r with
  | error e => exact reaches_throw h
  | ok a => exact reaches_ok h

theorem reaches_andThen {x : Holding γ σ α} {f : α → Holding γ σ β}
    {Q : Except Failure β → γ → σ → Prop}
    (h : Reaches T x.run c s
      (ending (fun a c s => Reaches T (f a).run c s Q) fun e c s => Q (.error e) c s)) :
    Reaches T (x >>= f).run c s Q := by
  obtain ⟨hpath, hpost⟩ := h
  have hrun := run_andThen x f c s
  rcases hx : x.run c s with ⟨⟨e | a, c'⟩, s'⟩ <;> rw [hx] at hpath hpost hrun
  · exact reaches_of_run hrun hpath hpost
  · exact ⟨by rw [hrun]; exact hpath.trans hpost.path, by rw [hrun]; exact hpost.post⟩

theorem reaches_ignore {x : Holding γ σ α} {Q : Except Failure PUnit → γ → σ → Prop}
    (h : Reaches T x.run c s
      (ending (fun _ c s => Q (.ok ⟨⟩) c s) fun e c s => Q (.error e) c s)) :
    Reaches T (discard x).run c s Q := by
  obtain ⟨hpath, hpost⟩ := h
  have hrun := run_discard x c s
  rcases hx : x.run c s with ⟨⟨e | a, c'⟩, s'⟩ <;> rw [hx] at hpath hpost hrun
  · exact reaches_of_run hrun hpath hpost
  · exact reaches_of_run hrun hpath hpost

theorem reaches_current {Q : Except Failure γ → γ → σ → Prop} (h : Q (.ok c) c s) :
    Reaches T (get : Holding γ σ γ).run c s Q :=
  ⟨.refl, h⟩

theorem reaches_change {f : γ → γ} {Q : Except Failure PUnit → γ → σ → Prop}
    (hT : ReflTransGen T (c, s) (f c, s)) (h : Q (.ok ⟨⟩) (f c) s) :
    Reaches T (modify f : Holding γ σ PUnit).run c s Q :=
  ⟨hT, h⟩

theorem reaches_replace {d : γ} {Q : Except Failure PUnit → γ → σ → Prop}
    (hT : ReflTransGen T (c, s) (d, s)) (h : Q (.ok ⟨⟩) d s) :
    Reaches T (set d : Holding γ σ PUnit).run c s Q :=
  ⟨hT, h⟩

theorem reaches_call {x : StateM σ α} {Q : Except Failure α → γ → σ → Prop}
    (hT : ReflTransGen T (c, s) (c, (x s).2)) (h : Q (.ok (x s).1) c (x s).2) :
    Reaches T (liftM x : Holding γ σ α).run c s Q :=
  ⟨hT, h⟩

theorem reaches_try {x : Fallible σ α} {Q : Except Failure α → γ → σ → Prop}
    (hT : ReflTransGen T (c, s) (c, (x.run s).2)) (h : Q (x.run s).1 c (x.run s).2) :
    Reaches T (liftM x : Holding γ σ α).run c s Q :=
  ⟨hT, h⟩

theorem reaches_inner {x : StateT γ (StateM σ) α} {Q : Except Failure α → γ → σ → Prop}
    (h : Reaches T x c s fun a c s => Q (.ok a) c s) :
    Reaches T (liftM x : Holding γ σ α).run c s Q :=
  ⟨h.path, h.post⟩

theorem reaches_outcome {x : Holding γ σ α} {Q : Except Failure (Except Failure α) → γ → σ → Prop}
    (h : Reaches T x.run c s fun r c s => Q (.ok r) c s) : Reaches T x.outcome.run c s Q :=
  ⟨h.path, h.post⟩

theorem reaches_calls {ν : Type} {f : ν → StateM σ PUnit}
    {Q : Except Failure PUnit → γ → σ → Prop} : ∀ {l : List ν} {s : σ},
    (∀ n ∈ l, ∀ s, T (c, s) (c, (f n s).2)) → (∀ s, Q (.ok ⟨⟩) c s) →
      Reaches T (l.forM fun n => liftM (f n) : Holding γ σ PUnit).run c s Q
  | [], _, _, h => reaches_ok (h _)
  | n :: l, s, hT, h => by
    show Reaches T ((liftM (f n) : Holding γ σ PUnit) >>= fun _ => l.forM fun n => liftM (f n)).run c s Q
    exact reaches_andThen (reaches_call (.single (hT n List.mem_cons_self s))
      (reaches_calls (fun m hm => hT m (List.mem_cons_of_mem _ hm)) h))

theorem reaches_each {ν : Type} {f : ν → Holding γ σ PUnit} {I : γ → Prop} :
    ∀ {l : List ν} {c : γ} {s : σ},
      (∀ n ∈ l, ∀ c s, I c → Reaches T (f n).run c s fun _ c _ => I c) → I c →
        Reaches T (l.forM f).run c s fun _ c _ => I c
  | [], _, _, _, hc => reaches_ok hc
  | n :: l, c, s, hf, hc => by
    show Reaches T (f n >>= fun _ => l.forM f).run c s _
    refine reaches_andThen ((hf n List.mem_cons_self c s hc).mono ?_)
    intro r c' s' hc'
    cases r with
    | error e => exact hc'
    | ok u => exact reaches_each (fun m hm => hf m (List.mem_cons_of_mem _ hm)) hc'

end

end Retune
