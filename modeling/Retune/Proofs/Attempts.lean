import Retune.Proofs.Accesses

/-!
# Attempts at a byte

A byte is tried until an attempt succeeds, at most as often as the limits allow.
An attempt makes at most one transaction, and resets its lane exactly if it
fails.
-/

namespace Retune

structure Attempt (α : Type) where
  result : Except Failure α
  accesses : List Access

variable {σ α β : Type} {bus : MessageBus} {lane : UInt8} {h : Host σ}

/-! ## Attempts -/

theorem makes_abandon (n : BusNotice) {e : Failure} (he : IsBusError bus lane e) :
    Makes bus lane 0 (bus.abandon (α := α) h.logged lane n e) := by
  intro r
  have hreset : Touches bus lane 0 1 (bus.resetLane h.logged lane) := touches_resetLane
  obtain ⟨l, hl, htraffic⟩ := hreset (h.logged.report n r).2
  refine ⟨l, hl, htraffic, ?_⟩
  intro e' he'
  rw [← Except.error.inj he']
  exact he

theorem makes_awaitIdle (reason : IdleReason) :
    Makes bus lane 0 (bus.awaitIdle h.logged lane reason) := by
  refine makes_skip (makes_call (touches_poll _ _ (.inl rfl) _)) fun waited => ?_
  cases waited with
  | error word => exact makes_abandon _ (.inl rfl)
  | ok word => exact makes_ok _

theorem makes_awaitResponse (expected : BusResponse) :
    Makes bus lane 0 (bus.awaitResponse h.logged lane expected) := by
  refine makes_skip (makes_call (touches_poll _ _ (.inr rfl) _)) fun waited => ?_
  cases waited with
  | error status => exact makes_abandon _ (.inl rfl)
  | ok status =>
    dsimp only
    split
    · exact makes_abandon _ (.inr ⟨status, rfl⟩)
    · split
      · exact makes_ok _
      · exact makes_abandon _ (.inr ⟨status, rfl⟩)

theorem makes_request (c : BusCommand) (addr : UInt16) (value : UInt8) :
    Makes bus lane 1 (liftM (h.logged.write (controlRegister bus.port lane)
      (BusWord.request c addr value)) : Fallible (Logged σ) Unit) :=
  makes_call (touches_write (traffic_request c addr value))

theorem makes_attemptRead (addr : UInt16) :
    Makes bus lane 1 (bus.attemptRead h.logged lane addr) := by
  refine makes_skip (makes_awaitIdle _) fun _ => ?_
  refine makes_settle (makes_request _ _ _) fun _ => ?_
  refine makes_skip (makes_awaitResponse _) fun _ => ?_
  exact makes_skip (makes_call touches_acknowledge) fun _ => makes_ok _

theorem makes_awaitWritten (committed : Bool) :
    Makes bus lane 0 (bus.awaitWritten h.logged lane committed) := by
  unfold MessageBus.awaitWritten
  split
  · exact makes_discard (makes_awaitResponse _)
  · refine makes_skip (makes_call (touches_read (.inr rfl))) fun status => ?_
    split
    · exact makes_abandon _ (.inr ⟨status, rfl⟩)
    · exact makes_ok _

theorem makes_attemptWrite (addr : UInt16) (value : UInt8) (committed : Bool) :
    Makes bus lane 1 (bus.attemptWrite h.logged lane addr value committed) := by
  refine makes_skip (makes_awaitIdle _) fun _ => ?_
  refine makes_settle (makes_request _ _ _) fun _ => ?_
  refine makes_skip (makes_awaitIdle _) fun _ => ?_
  refine makes_skip (makes_awaitWritten committed) fun _ => ?_
  exact makes_call touches_acknowledge

/-! ## Attempts in a row -/

/-- From `start` these attempts are made one after the other, the last one in
front; besides them there are only notices. -/
inductive Tried (h : Host σ) (attempt : Fallible (Logged σ) α) (start : Logged σ) :
    List (Attempt α) → Logged σ → Prop where
  | none : Tried h attempt start [] start
  | noticed {tries r} (n : Notice) : Tried h attempt start tries r →
      Tried h attempt start tries (h.logged.report n r).2
  | tried {tries r l} : Tried h attempt start tries r →
      (attempt.run r).2.accesses = l ++ r.accesses →
      Tried h attempt start (⟨(attempt.run r).1, l⟩ :: tries) (attempt.run r).2

def MessageBus.answer (bus : MessageBus) (lane : UInt8) : List (Attempt α) → Except Failure α
  | [] => .error (bus.timeout lane)
  | t :: _ => t.result

/-- How a call that accessed `log` is made of attempts, the last one in front. -/
structure Retried (bus : MessageBus) (lane : UInt8) (result : Except Failure α) (log : List Access)
    (tries : List (Attempt α)) : Prop where
  accesses : log = tries.flatMap Attempt.accesses
  limit : tries.length ≤ bus.limits.retries.toNat
  earlier : ∀ t ∈ tries.tail, t.result.isOk = false
  answer : result = bus.answer lane tries
  exhausted : result.isOk = false → tries.length = bus.limits.retries.toNat
  requests : ∀ t ∈ tries,
    t.accesses.countP (Access.isRequest (controlRegister bus.port lane)) ≤ 1
  resets : ∀ t ∈ tries,
    t.accesses.countP (Access.isReset (controlRegister bus.port lane)) = resetsFor t.result
  errors : ∀ t ∈ tries, ∀ e, t.result = .error e → IsBusError bus lane e
  places : ∀ a ∈ log,
    a.addr = controlRegister bus.port lane ∨ a.addr = statusRegister bus.port lane
  total : log.countP (Access.isReset (controlRegister bus.port lane)) =
    tries.countP fun t => !t.result.isOk
  untried : bus.limits.retries = 0 → result = .error (bus.timeout lane) ∧ log = []

section
variable {attempt : Fallible (Logged σ) α} {start r : Logged σ} {tries : List (Attempt α)}

theorem Tried.accesses (ht : Tried h attempt start tries r) :
    r.accesses = tries.flatMap Attempt.accesses ++ start.accesses := by
  induction ht with
  | none => rfl
  | noticed n _ ih => exact ih
  | tried _ hl ih =>
    rw [hl, ih, List.flatMap_cons, List.append_assoc]

theorem Tried.traffic (hmakes : Makes bus lane 1 attempt) (ht : Tried h attempt start tries r) :
    ∀ t ∈ tries, Traffic bus lane 1 (resetsFor t.result) t.accesses ∧
      ∀ e, t.result = .error e → IsBusError bus lane e := by
  induction ht with
  | none => exact nofun
  | noticed n _ ih => exact ih
  | @tried tries r l _ hl ih =>
    intro t hmem
    rcases List.mem_cons.mp hmem with rfl | hmem
    · obtain ⟨l', hl', htraffic, herror⟩ := hmakes r
      -- both are what this attempt added to the log
      have heq : l = l' := List.append_cancel_right (hl.symm.trans hl')
      rw [heq]
      exact ⟨htraffic, herror⟩
    · exact ih t hmem

theorem count_resets (htraffic : ∀ t ∈ tries, Traffic bus lane 1 (resetsFor t.result) t.accesses) :
    (tries.flatMap Attempt.accesses).countP (Access.isReset (controlRegister bus.port lane)) =
      tries.countP fun t => !t.result.isOk := by
  induction tries with
  | nil => rfl
  | cons t tries ih =>
    have hone : (if (!t.result.isOk) = true then 1 else 0) = resetsFor t.result := by
      rcases t.result with e | a <;> rfl
    rw [List.flatMap_cons, List.countP_append, List.countP_cons, hone,
      (htraffic t List.mem_cons_self).resets, ih fun t ht => htraffic t (List.mem_cons_of_mem _ ht),
      Nat.add_comm]

def Announces (h : Host σ) (attempt whole : Fallible (Logged σ) α) : Prop :=
  ∃ n : α → Notice, ∀ r, whole.run r =
    match attempt.run r with
    | (.ok a, r) => (.ok a, (h.logged.report (n a) r).2)
    | (.error e, r) => (.error e, r)

theorem tried_attempts {whole : Fallible (Logged σ) α} (hwhole : Announces h attempt whole)
    (hmakes : Makes bus lane 1 attempt) (n : Nat → Failure → Notice) :
    ∀ (left made : Nat) (last : Failure) {older : List (Attempt α)} {r : Logged σ},
      Tried h attempt start older r → (∀ t ∈ older, t.result.isOk = false) →
      bus.answer lane older = .error last →
        let ended := (MessageBus.attempts h.logged whole n made last left).run r
        ∃ tries, Tried h attempt start tries ended.2 ∧ ended.1 = bus.answer lane tries ∧
          (∀ t ∈ tries.tail, t.result.isOk = false) ∧ tries.length ≤ older.length + left ∧
            (ended.1.isOk = false → tries.length = older.length + left)
  | 0, _, last, older, _, ht, hfailed, hlast => by
    refine ⟨older, ht, hlast.symm, ?_, Nat.le_refl _, fun _ => rfl⟩
    intro t hmem
    exact hfailed t (List.mem_of_mem_tail hmem)
  | left + 1, made, last, older, r, ht, hfailed, hlast => by
    obtain ⟨announce, hrun⟩ := hwhole
    obtain ⟨l, hl, -⟩ := hmakes r
    have ht' := ht.tried hl
    intro ended
    have hended : ended = _ := MessageBus.attempts_run whole n made last left r
    rw [hrun r] at hended
    rcases hr : attempt.run r with ⟨e | a, r'⟩ <;> rw [hr] at ht' hended
    · -- a failed attempt is one more, with one less to make
      obtain ⟨tries, htried, hanswer, htail, hlimit, hexhausted⟩ :=
        tried_attempts ⟨announce, hrun⟩ hmakes n left (made + 1) e (ht'.noticed (n (made + 1) e))
          (List.forall_mem_cons.mpr ⟨rfl, hfailed⟩) rfl
      rw [hended]
      rw [List.length_cons] at hlimit hexhausted
      refine ⟨tries, htried, hanswer, htail, ?_, ?_⟩
      · omega
      · intro hfails
        have hlength := hexhausted hfails
        omega
    · rw [hended]
      refine ⟨_, ht'.noticed (announce a), rfl, hfailed, ?_, nofun⟩
      rw [List.length_cons]
      omega

theorem retried_of_tried (hmakes : Makes bus lane 1 attempt) {s : σ} {result : Except Failure α}
    (ht : Tried h attempt ⟨s, []⟩ tries r) (hanswer : result = bus.answer lane tries)
    (htail : ∀ t ∈ tries.tail, t.result.isOk = false)
    (hlimit : tries.length ≤ bus.limits.retries.toNat)
    (hexhausted : result.isOk = false → tries.length = bus.limits.retries.toNat) :
    Retried bus lane result r.accesses tries := by
  have hlog : r.accesses = tries.flatMap Attempt.accesses := by
    rw [ht.accesses, List.append_nil]
  have htraffic := ht.traffic hmakes
  constructor
  case accesses => exact hlog
  case limit => exact hlimit
  case earlier => exact htail
  case answer => exact hanswer
  case exhausted => exact hexhausted
  case requests => exact fun t hmem => (htraffic t hmem).1.requests
  case resets => exact fun t hmem => (htraffic t hmem).1.resets
  case errors => exact fun t hmem => (htraffic t hmem).2
  case places =>
    intro a ha
    rw [hlog] at ha
    obtain ⟨t, hmem, ha⟩ := List.mem_flatMap.mp ha
    exact (htraffic t hmem).1.places a ha
  case total =>
    rw [hlog]
    exact count_resets fun t hmem => (htraffic t hmem).1
  case untried =>
    intro hnone
    have hzero : bus.limits.retries.toNat = 0 := by
      rw [hnone]
      rfl
    rw [hzero] at hlimit
    have hnil : tries = [] := List.eq_nil_of_length_eq_zero (Nat.le_zero.mp hlimit)
    rw [hlog, hanswer, hnil]
    exact ⟨rfl, rfl⟩

theorem retried_retrying {whole : Fallible (Logged σ) α} (hwhole : Announces h attempt whole)
    (hmakes : Makes bus lane 1 attempt) (direction : Direction) (addr : UInt16) (s : σ) :
    let ended := (bus.retrying h.logged lane direction addr whole).run ⟨s, []⟩
    ∃ tries, Tried h attempt ⟨s, []⟩ tries ended.2 ∧
      Retried bus lane ended.1 ended.2.accesses tries := by
  intro ended
  have hstart : Tried h attempt ⟨s, []⟩ [] ⟨s, []⟩ := .none
  obtain ⟨tries, htried, hanswer, htail, hlimit, hexhausted⟩ := tried_attempts hwhole hmakes
    (fun i e => BusNotice.attemptFailed bus.port direction addr i e) bus.limits.retries.toNat 0
    (bus.timeout lane) hstart nofun rfl
  rw [List.length_nil, Nat.zero_add] at hlimit hexhausted
  have hrun : ended = _ := bus.retrying_run lane direction addr whole ⟨s, []⟩
  rcases hmade : (MessageBus.attempts h.logged whole
      (fun i e => BusNotice.attemptFailed bus.port direction addr i e) 0 (bus.timeout lane)
      bus.limits.retries.toNat).run ⟨s, []⟩ with ⟨e | a, r⟩ <;>
    rw [hmade] at hrun htried hanswer hexhausted <;> rw [hrun]
  · have hgaveUp := htried.noticed (BusNotice.gaveUp bus.port direction addr bus.limits.retries)
    exact ⟨tries, hgaveUp, retried_of_tried hmakes hgaveUp hanswer htail hlimit hexhausted⟩
  · exact ⟨tries, htried, retried_of_tried hmakes htried hanswer htail hlimit hexhausted⟩

end

/-! ## Calls -/

theorem announces_read (h : Host σ) (bus : MessageBus) (lane : UInt8) (addr : UInt16) :
    Announces h (bus.attemptRead h.logged lane addr) (do
      let value ← bus.attemptRead h.logged lane addr
      h.logged.report (BusNotice.byteRead bus.port lane addr value)
      return value) := by
  refine ⟨fun value => BusNotice.byteRead bus.port lane addr value, fun r => ?_⟩
  rw [run_then]
  rcases (bus.attemptRead h.logged lane addr).run r with ⟨e | value, r'⟩ <;> rfl

theorem announces_write (h : Host σ) (bus : MessageBus) (lane : UInt8) (addr : UInt16)
    (value : UInt8) (committed : Bool) :
    Announces h (bus.attemptWrite h.logged lane addr value committed) (do
      bus.attemptWrite h.logged lane addr value committed
      h.logged.report (BusNotice.byteWritten bus.port lane addr value)) := by
  refine ⟨fun _ => BusNotice.byteWritten bus.port lane addr value, fun r => ?_⟩
  rw [run_then]
  rcases (bus.attemptWrite h.logged lane addr value committed).run r with ⟨e | u, r'⟩ <;> rfl

/-- A call is made of attempts in a row, and they account for its accesses. The
call with accesses written down ends as the call does. -/
def MadeOf (h : Host σ) (bus : MessageBus) (lane : UInt8) (attempt : Fallible (Logged σ) α)
    (call : Fallible σ α) (logged : Fallible (Logged σ) α) : Prop :=
  ∀ s,
    let ended := logged.run ⟨s, []⟩
    call.run s = (ended.1, ended.2.world) ∧
      ∃ tries, Tried h attempt ⟨s, []⟩ tries ended.2 ∧
        Retried bus lane ended.1 ended.2.accesses tries

/-- Whatever the hardware does, reading and writing a byte come down to attempts
in a row. There are at most as many as the limits allow, and none after one that
succeeds. Each makes at most one transaction, resets the lane once if it fails
and never if it succeeds, and fails with an error of the lane; the call answers
as the last one ended. No register but the two of the lane is accessed, and none
at all when nothing may be tried. -/
theorem bytes_retried (h : Host σ) (bus : MessageBus) (lane : UInt8) (addr : UInt16) :
    MadeOf h bus lane (bus.attemptRead h.logged lane addr) (bus.readByte h lane addr)
        (bus.readByte h.logged lane addr) ∧
      ∀ value committed,
        MadeOf h bus lane (bus.attemptWrite h.logged lane addr value committed)
          (bus.writeByte h lane addr value committed)
          (bus.writeByte h.logged lane addr value committed) := by
  have hparallel := parallel_logged h
  constructor
  · intro s
    exact ⟨hparallel.readByte bus lane addr ⟨s, []⟩,
      retried_retrying (announces_read h bus lane addr) (makes_attemptRead addr) .read addr s⟩
  · intro value committed s
    exact ⟨hparallel.writeByte bus lane addr value committed ⟨s, []⟩,
      retried_retrying (announces_write h bus lane addr value committed)
        (makes_attemptWrite addr value committed) .write addr s⟩

end Retune
