import Retune.Bench.Trace
import Retune.Proofs.Footprint
import Retune.Proofs.Projection
import Retune.Proofs.Words

/-!
# Register accesses

A logged host writes down every register it reads and writes, and is otherwise
the host. What a program of the message bus accesses adds up along the program:
which registers, how many transactions, and how many resets.
-/

namespace Retune

def Access.addr : Access → UInt32
  | .read addr _ | .write addr _ => addr

/-- A world with the accesses made so far, the latest first. -/
structure Logged (σ : Type) where
  world : σ
  accesses : List Access

def Host.logged {σ : Type} (h : Host σ) : Host (Logged σ) where
  stopRequested signal r :=
    ((h.stopRequested signal r.world).1, { r with world := (h.stopRequested signal r.world).2 })
  report n r := ((), { r with world := (h.report n r.world).2 })
  pause ms r := ((), { r with world := (h.pause ms r.world).2 })
  load addr r :=
    ((h.load addr r.world).1,
      ⟨(h.load addr r.world).2, .read addr (h.load addr r.world).1 :: r.accesses⟩)
  store addr value r := ((), ⟨(h.store addr value r.world).2, .write addr value :: r.accesses⟩)

def Access.isReset (control : UInt32) : Access → Bool
  | .write addr value => addr == control && value == BusWord.reset
  | .read .. => false

def Access.isRequest (control : UInt32) : Access → Bool
  | .write addr value => addr == control && value &&& BusWord.pending != 0
  | .read .. => false

theorem carries_bind {ρ σ α β : Type} {f : ρ → σ} {x' : StateM ρ α} {x : StateM σ α}
    {g' : α → StateM ρ β} {g : α → StateM σ β} (hx : Carries f x' x)
    (hg : ∀ a, Carries f (g' a) (g a)) : Carries f (x' >>= g') (x >>= g) := by
  intro r
  have hfirst := hx r
  show g (x (f r)).1 (x (f r)).2 = _
  rw [hfirst]
  exact hg _ _

theorem parallel_logged {σ : Type} (h : Host σ) :
    h.logged.Parallel h fun _ x' x => Carries Logged.world x' x where
  done _ _ := rfl
  chain hx hf := carries_bind hx hf
  report _ _ := rfl
  load _ _ := rfl
  store _ _ _ := rfl

theorem statusRegister_ne (port : UInt32) (lane : UInt8) :
    statusRegister port lane ≠ controlRegister port lane := by
  intro heq
  unfold statusRegister at heq
  simp at heq

variable {σ α β : Type} (bus : MessageBus) (lane : UInt8)

/-! ## Accesses of a part of an attempt -/

/-- At most `m` transactions and exactly `n` resets, all on the registers of the
lane. -/
structure Traffic (m n : Nat) (l : List Access) : Prop where
  places : ∀ a ∈ l,
    a.addr = controlRegister bus.port lane ∨ a.addr = statusRegister bus.port lane
  requests : l.countP (Access.isRequest (controlRegister bus.port lane)) ≤ m
  resets : l.countP (Access.isReset (controlRegister bus.port lane)) = n

def IsBusError (e : Failure) : Prop :=
  e = bus.timeout lane ∨ ∃ status, e = .busProtocol bus.port lane status

def resetsFor : Except Failure α → Nat
  | .ok _ => 0
  | .error _ => 1

/-- `x` accesses as much as that, whatever it meets. -/
def Touches (m n : Nat) (x : StateM (Logged σ) α) : Prop :=
  ∀ r, ∃ l, (x r).2.accesses = l ++ r.accesses ∧ Traffic bus lane m n l

/-- `x` makes at most `m` transactions, and a reset exactly if it fails. -/
def Makes (m : Nat) (x : Fallible (Logged σ) α) : Prop :=
  ∀ r, ∃ l, (x.run r).2.accesses = l ++ r.accesses ∧
    Traffic bus lane m (resetsFor (x.run r).1) l ∧
      ∀ e, (x.run r).1 = .error e → IsBusError bus lane e

variable {bus lane} {m n m' n' : Nat} {l l' : List Access} {h : Host σ}

theorem Traffic.append (hl : Traffic bus lane m n l) (hl' : Traffic bus lane m' n' l') :
    Traffic bus lane (m + m') (n + n') (l' ++ l) where
  places a ha := by
    rcases List.mem_append.mp ha with ha | ha
    · exact hl'.places a ha
    · exact hl.places a ha
  requests := by
    have hfirst := hl.requests
    have hsecond := hl'.requests
    rw [List.countP_append]
    omega
  resets := by rw [List.countP_append, hl.resets, hl'.resets, Nat.add_comm]

theorem traffic_nil : Traffic bus lane m 0 [] := ⟨nofun, Nat.zero_le m, rfl⟩

theorem traffic_read {addr : UInt32} (value : UInt32)
    (haddr : addr = controlRegister bus.port lane ∨ addr = statusRegister bus.port lane) :
    Traffic bus lane 0 0 [.read addr value] := by
  refine ⟨?_, Nat.le_refl 0, rfl⟩
  intro a ha
  rw [List.mem_singleton.mp ha]
  exact haddr

theorem traffic_clear (value : UInt32) :
    Traffic bus lane 0 0 [.write (statusRegister bus.port lane) value] := by
  have hne : (statusRegister bus.port lane == controlRegister bus.port lane) = false :=
    beq_eq_false_iff_ne.mpr (statusRegister_ne bus.port lane)
  refine ⟨?_, ?_, ?_⟩
  · intro a ha
    rw [List.mem_singleton.mp ha]
    exact .inr rfl
  · simp [Access.isRequest, hne]
  · simp [Access.isReset, hne]

theorem traffic_reset :
    Traffic bus lane 0 1 [.write (controlRegister bus.port lane) BusWord.reset] := by
  refine ⟨?_, ?_, ?_⟩
  · intro a ha
    rw [List.mem_singleton.mp ha]
    exact .inl rfl
  · have hclear : (BusWord.reset &&& BusWord.pending != 0) = false := by decide
    simp [Access.isRequest, hclear]
  · simp [Access.isReset]

theorem traffic_request (c : BusCommand) (addr : UInt16) (value : UInt8) :
    Traffic bus lane 1 0
      [.write (controlRegister bus.port lane) (BusWord.request c addr value)] := by
  have hne : (BusWord.request c addr value == BusWord.reset) = false :=
    beq_eq_false_iff_ne.mpr (BusWord.request_ne_reset c addr value)
  refine ⟨?_, ?_, ?_⟩
  · intro a ha
    rw [List.mem_singleton.mp ha]
    exact .inl rfl
  · exact List.countP_le_length
  · simp [Access.isReset, hne]

/-! ## Programs -/

theorem touches_pure (a : α) : Touches (σ := σ) bus lane 0 0 (pure a) :=
  fun _ => ⟨[], rfl, traffic_nil⟩

theorem touches_report (n : Notice) : Touches bus lane 0 0 (h.logged.report n) :=
  fun _ => ⟨[], rfl, traffic_nil⟩

theorem touches_bind {x : StateM (Logged σ) α} {f : α → StateM (Logged σ) β}
    (hx : Touches bus lane m n x) (hf : ∀ a, Touches bus lane m' n' (f a)) :
    Touches bus lane (m + m') (n + n') (x >>= f) := by
  intro r
  obtain ⟨l, hl, htraffic⟩ := hx r
  obtain ⟨l', hl', htraffic'⟩ := hf (x r).1 (x r).2
  refine ⟨l' ++ l, ?_, htraffic.append htraffic'⟩
  have hrun : ((x >>= f) r).2.accesses = (f (x r).1 (x r).2).2.accesses := rfl
  rw [hrun, hl', hl, List.append_assoc]

theorem touches_skip {x : StateM (Logged σ) α} {f : α → StateM (Logged σ) β}
    (hx : Touches bus lane 0 0 x) (hf : ∀ a, Touches bus lane m n (f a)) :
    Touches bus lane m n (x >>= f) := by
  have hall := touches_bind hx hf
  rw [Nat.zero_add, Nat.zero_add] at hall
  exact hall

theorem touches_settle {x : StateM (Logged σ) α} {f : α → StateM (Logged σ) β}
    (hx : Touches bus lane m n x) (hf : ∀ a, Touches bus lane 0 0 (f a)) :
    Touches bus lane m n (x >>= f) := touches_bind hx hf

theorem makes_ok (a : α) : Makes (σ := σ) bus lane 0 (pure a) :=
  fun _ => ⟨[], rfl, traffic_nil, nofun⟩

theorem makes_call {x : StateM (Logged σ) α} (hx : Touches bus lane m 0 x) :
    Makes bus lane m (liftM x : Fallible (Logged σ) α) := by
  intro r
  obtain ⟨l, hl, htraffic⟩ := hx r
  exact ⟨l, hl, htraffic, nofun⟩

theorem makes_then {x : Fallible (Logged σ) α} {f : α → Fallible (Logged σ) β}
    (hx : Makes bus lane m x) (hf : ∀ a, Makes bus lane m' (f a)) :
    Makes bus lane (m + m') (x >>= f) := by
  intro r
  obtain ⟨l, hl, htraffic, herror⟩ := hx r
  rw [run_then]
  rcases hrun : x.run r with ⟨e | a, r'⟩ <;> rw [hrun] at hl htraffic herror
  · refine ⟨l, hl, ⟨htraffic.places, ?_, htraffic.resets⟩, ?_⟩
    · exact Nat.le_add_right_of_le htraffic.requests
    · intro e' he'
      exact herror e' (congrArg Except.error (Except.error.inj he'))
  · obtain ⟨l', hl', htraffic', herror'⟩ := hf a r'
    have hall := htraffic.append htraffic'
    refine ⟨l' ++ l, ?_, ?_, herror'⟩
    · show ((f a).run r').2.accesses = _
      rw [hl', hl, List.append_assoc]
    · rw [show resetsFor (Except.ok a : Except Failure α) = 0 from rfl, Nat.zero_add] at hall
      exact hall

theorem makes_skip {x : Fallible (Logged σ) α} {f : α → Fallible (Logged σ) β}
    (hx : Makes bus lane 0 x) (hf : ∀ a, Makes bus lane m (f a)) : Makes bus lane m (x >>= f) := by
  have hall := makes_then hx hf
  rw [Nat.zero_add] at hall
  exact hall

theorem makes_settle {x : Fallible (Logged σ) α} {f : α → Fallible (Logged σ) β}
    (hx : Makes bus lane m x) (hf : ∀ a, Makes bus lane 0 (f a)) : Makes bus lane m (x >>= f) :=
  makes_then hx hf

theorem makes_discard {x : Fallible (Logged σ) α} (hx : Makes bus lane m x) :
    Makes bus lane m (discard x) := by
  intro r
  obtain ⟨l, hl, htraffic, herror⟩ := hx r
  have hmap := map_run (fun _ => PUnit.unit) x r
  refine ⟨l, ?_, ?_, ?_⟩
  · exact (congrArg (fun p => p.2.accesses) hmap).trans hl
  · have hresets : resetsFor ((discard x).run r).1 = resetsFor (x.run r).1 := by
      show resetsFor (((fun _ => PUnit.unit) <$> x).run r).1 = _
      rw [hmap]
      rcases (x.run r).1 with e | a <;> rfl
    rw [hresets]
    exact htraffic
  · intro e he
    have hfirst : (x.run r).1.map (fun _ => PUnit.unit) = .error e :=
      (congrArg Prod.fst hmap).symm.trans he
    rcases hr : (x.run r).1 with e' | a <;> rw [hr] at hfirst
    · exact herror e (hr.trans (congrArg Except.error (Except.error.inj hfirst)))
    · cases hfirst

/-! ## Registers of the lane -/

theorem touches_read {addr : UInt32}
    (haddr : addr = controlRegister bus.port lane ∨ addr = statusRegister bus.port lane) :
    Touches bus lane 0 0 (h.logged.read addr) :=
  fun _ => ⟨[.read addr _], rfl, traffic_read _ haddr⟩

theorem touches_write {addr value : UInt32} (hw : Traffic bus lane m n [.write addr value]) :
    Touches bus lane m n (h.logged.write addr value) :=
  fun _ => ⟨[.write addr value], rfl, hw⟩

theorem touches_poll {addr : UInt32} (mask value : UInt32)
    (haddr : addr = controlRegister bus.port lane ∨ addr = statusRegister bus.port lane) :
    ∀ more, Touches bus lane 0 0 (h.logged.poll addr mask value more)
  | 0 => by
    refine touches_skip (touches_read haddr) fun word => ?_
    split
    · exact touches_pure _
    · exact touches_skip (touches_report _) fun _ => touches_pure _
  | more + 1 => by
    refine touches_skip (touches_read haddr) fun word => ?_
    split
    · exact touches_pure _
    · exact touches_poll mask value haddr more

theorem touches_acknowledge : Touches bus lane 0 0 (bus.acknowledge h.logged lane) := by
  have hrevise (clear set : UInt32) :
      Touches bus lane 0 0 (h.logged.reviseBits (statusRegister bus.port lane) clear set) :=
    touches_skip (touches_read (.inr rfl)) fun _ =>
      touches_skip (touches_write (traffic_clear _)) fun _ => touches_pure _
  exact hrevise 0 (BusWord.responseReady ||| BusWord.errorSet)

theorem touches_resetLane : Touches bus lane 0 1 (bus.resetLane h.logged lane) := by
  refine touches_settle (touches_write traffic_reset) fun _ => ?_
  refine touches_skip (touches_poll _ _ (.inl rfl) _) fun waited => ?_
  cases waited with
  | error word => exact touches_report _
  | ok word => exact touches_acknowledge

end Retune
