import Retune.Proofs.BenchPhy
import Retune.Proofs.Footprint

/-!
# Responses to reads

Between calls a response is left on a lane only where a reset did not come back.
A read that succeeds answers with what the PHY read for it during the call, or,
on such a lane, with the response that was left there.
-/

namespace Retune

variable {σ α β : Type}

/-! ## Where programs lead -/

/-- Where `x` leads from `s`. -/
def Gives (x : StateM σ α) (s : σ) (Q : α → σ → Prop) : Prop := Q (x s).1 (x s).2

def upon (Q : α → σ → Prop) (R : σ → Prop) : Except Failure α → σ → Prop
  | .ok a => Q a
  | .error _ => R

section
variable {s : σ} {P : α → σ → Prop} {Q : β → σ → Prop} {R : σ → Prop}

theorem gives_bind {x : StateM σ α} {f : α → StateM σ β} (hx : Gives x s P)
    (hf : ∀ a s, P a s → Gives (f a) s Q) : Gives (x >>= f) s Q := hf _ _ hx

theorem gives_call {x : StateM σ α} (hx : Gives x s P) :
    Gives (liftM x : Fallible σ α).run s (upon P R) := hx

theorem gives_then {x : Fallible σ α} {f : α → Fallible σ β} (hx : Gives x.run s (upon P R))
    (hf : ∀ a s, P a s → Gives (f a).run s (upon Q R)) : Gives (x >>= f).run s (upon Q R) := by
  unfold Gives at hx ⊢
  rw [run_then]
  rcases hrun : x.run s with ⟨e | a, s'⟩ <;> rw [hrun] at hx
  · exact hx
  · exact hf a s' hx

theorem gives_discard {x : Fallible σ α} {T : σ → Prop} (hx : Gives x.run s (upon P R))
    (hP : ∀ a s, P a s → T s) : Gives (discard x).run s (upon (fun _ => T) R) := by
  have hmap := map_run (fun _ => PUnit.unit) x s
  unfold Gives at hx ⊢
  show upon _ R (((fun _ => PUnit.unit) <$> x).run s).1 (((fun _ => PUnit.unit) <$> x).run s).2
  rw [hmap]
  rcases hrun : x.run s with ⟨e | a, s'⟩ <;> rw [hrun] at hx
  · exact hx
  · exact hP a s' hx

theorem Gives.imp {x : Fallible σ α} {P' : α → σ → Prop} {R' : σ → Prop}
    (hx : Gives x.run s (upon P R)) (hP : ∀ a s, P a s → P' a s) (hR : ∀ s, R s → R' s) :
    Gives x.run s (upon P' R') := by
  unfold Gives at hx ⊢
  rcases hrun : x.run s with ⟨e | a, s'⟩ <;> rw [hrun] at hx
  · exact hR s' hx
  · exact hP a s' hx

theorem gives_next {x : Fallible σ α} {f : α → Fallible σ β} {T : σ → Prop}
    (hx : Gives x.run s (upon P T)) (hT : ∀ s, T s → R s)
    (hf : ∀ a s, P a s → Gives (f a).run s (upon Q R)) : Gives (x >>= f).run s (upon Q R) :=
  gives_then (hx.imp (fun _ _ => id) hT) hf

theorem Gives.ok {x : Fallible σ α} {a : α} (hx : Gives x.run s (upon P R))
    (hok : (x.run s).1 = .ok a) : P a (x.run s).2 := by
  unfold Gives at hx
  rw [hok] at hx
  exact hx

theorem Gives.either {x : Fallible σ α} {T : σ → Prop} (hx : Gives x.run s (upon P R))
    (hP : ∀ a s, P a s → T s) (hR : ∀ s, R s → T s) : T (x.run s).2 := by
  unfold Gives at hx
  cases hok : (x.run s).1 with
  | ok a =>
    rw [hok] at hx
    exact hP a _ hx
  | error e =>
    rw [hok] at hx
    exact hR _ hx

theorem Gives.and {x : StateM σ α} {P' : α → σ → Prop} (hx : Gives x s P) (hx' : Gives x s P') :
    Gives x s fun a s => P a s ∧ P' a s := ⟨hx, hx'⟩

theorem Gives.both {x : Fallible σ α} {P' : α → σ → Prop} {R' : σ → Prop}
    (hx : Gives x.run s (upon P R)) (hx' : Gives x.run s (upon P' R')) :
    Gives x.run s (upon (fun a s => P a s ∧ P' a s) fun s => R s ∧ R' s) := by
  unfold Gives at hx hx' ⊢
  rcases hrun : x.run s with ⟨e | a, s'⟩ <;> rw [hrun] at hx hx' <;> exact ⟨hx, hx'⟩

theorem Gives.carried {ρ : Type} {f : ρ → σ} {x' : Fallible ρ α} {x : Fallible σ α} {r : ρ}
    (hx : x.run (f r) = ((x'.run r).1, f (x'.run r).2))
    (hx' : Gives x'.run r (upon (fun a r => P a (f r)) fun r => R (f r))) :
    Gives x.run (f r) (upon P R) := by
  unfold Gives at hx' ⊢
  rw [hx]
  rcases hrun : x'.run r with ⟨e | a, r'⟩ <;> rw [hrun] at hx' <;> exact hx'

end

theorem gives_sampled {h : Host σ} {addr : UInt32} {I : σ → Prop} {W : UInt32 → σ → Prop}
    (hread : ∀ s, I s → Gives (h.read addr) s fun w s' => I s' ∧ W w s')
    (hreport : ∀ n w s, I s → W w s → I (h.report n s).2 ∧ W w (h.report n s).2)
    (mask value : UInt32) : ∀ (more : Nat) {s : σ}, I s →
      Gives (h.poll addr mask value more) s fun r s' => I s' ∧
        match r with
        | .ok w => w &&& mask = value ∧ W w s'
        | .error w => w &&& mask ≠ value ∧ W w s'
  | 0, s, hs => by
    refine gives_bind (hread s hs) fun w s₁ hsampled => ?_
    obtain ⟨hs₁, hw⟩ := hsampled
    split
    · next hmatch => exact ⟨hs₁, beq_iff_eq.mp hmatch, hw⟩
    · next hmatch =>
      obtain ⟨hs₂, hw₂⟩ := hreport (ApertureNotice.waitExpired addr mask value w) w s₁ hs₁ hw
      exact ⟨hs₂, fun heq => hmatch (beq_iff_eq.mpr heq), hw₂⟩
  | more + 1, s, hs => by
    refine gives_bind (hread s hs) fun w s₁ hsampled => ?_
    obtain ⟨hs₁, hw⟩ := hsampled
    split
    · next hmatch => exact ⟨hs₁, beq_iff_eq.mp hmatch, hw⟩
    · exact gives_sampled hread hreport mask value more hs₁

theorem gives_responded {h : Host σ} {bus : MessageBus} {lane : UInt8} {s : σ} {I R : σ → Prop}
    {W : UInt32 → σ → Prop} (expected : BusResponse)
    (hpoll : ∀ mask value more, Gives (h.poll (statusRegister bus.port lane) mask value more) s
      fun r s' => I s' ∧
        match r with
        | .ok w => w &&& mask = value ∧ W w s'
        | .error w => w &&& mask ≠ value ∧ W w s')
    (habandon : ∀ (n : BusNotice) (e : Failure) (Q : UInt32 → σ → Prop) s', I s' →
      Gives (bus.abandon h lane n e).run s' (upon Q R)) :
    Gives (bus.awaitResponse h lane expected).run s
      (upon (fun w s' => I s' ∧ W w s' ∧ w &&& BusWord.responseReady ≠ 0 ∧
          w &&& BusWord.errorSet = 0 ∧
            BusResponse.ofCode? (BusWord.command.get w) = some expected)
        R) := by
  refine gives_then (gives_call (hpoll _ _ _)) fun waited s₁ hpolled => ?_
  obtain ⟨hs₁, hwaited⟩ := hpolled
  cases waited with
  | error w => exact habandon _ _ _ _ hs₁
  | ok w =>
    have hready : w &&& BusWord.responseReady ≠ 0 := by
      rw [hwaited.1]
      decide
    dsimp only
    split
    · exact habandon _ _ _ _ hs₁
    · next herror =>
      split
      · next hcode =>
        have hnone : w &&& BusWord.errorSet = 0 := by simpa using herror
        exact ⟨hs₁, hwaited.2, hready, hnone, hcode⟩
      · exact habandon _ _ _ _ hs₁

/-! ## One lane during a call -/

structure IsReadAck (w : UInt32) : Prop where
  ready : w &&& BusWord.responseReady ≠ 0
  noError : w &&& BusWord.errorSet = 0
  isAck : BusResponse.ofCode? (BusWord.command.get w) = some .readAck

/-- What transactions of one kind on a lane uphold of its status word and of what
has been executed since. -/
structure Upheld (l : BusLane) (c : BusCommand) (addr : UInt16)
    (G : UInt32 → List Execution → Prop) : Prop where
  cleared : ∀ {w done}, w &&& BusWord.responseReady = 0 → G w done
  transacted : ∀ {w done w' done'}, Transacted l c addr w done w' done' → G w done → G w' done'

/-- The status word is the one at the start, or no answer to a read, or that of a
read from `addr` since. -/
def Vouched (l : BusLane) (addr : UInt16) (start w : UInt32) (done : List Execution) : Prop :=
  IsReadAck w → w = start ∨ (⟨l, .read, addr, BusWord.byte w⟩ : Execution) ∈ done

theorem upheld_vouched (l : BusLane) (addr : UInt16) (start : UInt32) :
    Upheld l .read addr (Vouched l addr start) where
  cleared hclear hack := absurd hclear hack.ready
  transacted htransacted hbefore := by
    cases htransacted with
    | left => exact hbefore
    | refused herror => exact fun hack => absurd hack.noError herror
    | executed swap value =>
      cases swap with
      | true =>
        intro hack
        have hmistyped : BusResponse.ofCode? (BusWord.command.get
          (BusWord.response .writeAck 0)) = some .readAck := hack.isAck
        rw [BusWord.response_of] at hmistyped
        cases hmistyped
      | false =>
        intro _
        right
        show (⟨l, .read, addr, BusWord.byte (BusWord.response .readAck value)⟩ : Execution) ∈ _
        rw [BusWord.byte_response]
        exact List.mem_cons_self

theorem upheld_true (l : BusLane) (c : BusCommand) (addr : UInt16) :
    Upheld l c addr fun _ _ => True := ⟨fun _ => trivial, fun _ _ => trivial⟩

theorem Transacted.suffix {l : BusLane} {c : BusCommand} {addr : UInt16} {w w' : UInt32}
    {done older done' : List Execution} (h : Transacted l c addr w (done ++ older) w' done') :
    ∃ new, done' = new ++ older ∧ Transacted l c addr w done w' new := by
  cases h with
  | left => exact ⟨done, rfl, .left⟩
  | refused herror => exact ⟨done, rfl, .refused herror⟩
  | executed swap value => exact ⟨_ :: done, rfl, .executed swap value⟩

section
variable {h : Host σ} (phy : BusPhy h) (l : BusLane) (G : UInt32 → List Execution → Prop) (s₀ : σ)

structure During (s : σ) : Prop where
  sound : phy.sound s
  status : ∀ l', phy.isLane l' → l' ≠ l → phy.status s l' = phy.status s₀ l'
  resetting : ∀ l', phy.isLane l' → l' ≠ l → phy.resetting s l' = phy.resetting s₀ l'
  upheld : ∃ done, phy.executed s = done ++ phy.executed s₀ ∧ G (phy.status s l) done

/-- A response is left only where a reset stands. -/
def Rests (s : σ) : Prop :=
  phy.status s l &&& BusWord.responseReady ≠ 0 → phy.resetting s l = true

structure Shows (addr w : UInt32) (s : σ) : Prop where
  status : addr = l.status → w &&& BusWord.responseReady ≠ 0 → w = phy.status s l
  control : addr = l.control → w &&& BusWord.reset ≠ 0 → phy.resetting s l = true

variable {phy l G s₀} {s s' : σ}

theorem During.same (hs : During phy l G s₀ s) (hsame : phy.Same s s') : During phy l G s₀ s' where
  sound := hsame.sound
  status := by
    rw [hsame.status]
    exact hs.status
  resetting := by
    rw [hsame.resetting]
    exact hs.resetting
  upheld := by
    rw [hsame.executed, hsame.status]
    exact hs.upheld

theorem During.sameBut (hs : During phy l G s₀ s) (hsame : phy.SameBut l s s')
    (hupheld : ∃ done, phy.executed s' = done ++ phy.executed s₀ ∧ G (phy.status s' l) done) :
    During phy l G s₀ s' where
  sound := hsame.sound
  status l' hl' hne := (hsame.status l' hl' hne).trans (hs.status l' hl' hne)
  resetting l' hl' hne := (hsame.resetting l' hl' hne).trans (hs.resetting l' hl' hne)
  upheld := hupheld

theorem Shows.same {addr w : UInt32} (hw : Shows phy l addr w s) (hsame : phy.Same s s') :
    Shows phy l addr w s' where
  status := by
    rw [hsame.status]
    exact hw.status
  control := by
    rw [hsame.resetting]
    exact hw.control

/-! ## Registers of the lane -/

theorem gives_read (hl : phy.isLane l) (hs : phy.sound s) (addr : UInt32) :
    Gives (h.read addr) s fun w s' => phy.Same s s' ∧ Shows phy l addr w s' := by
  have hload := phy.load addr hs
  have hshows : Shows phy l addr (h.load addr s).1 s := by
    constructor
    · rintro rfl hready
      exact phy.loadStatus hs hl hready
    · rintro rfl hreset
      exact phy.loadControl hs hl hreset
  have hsame := hload.trans (phy.report (ApertureNotice.registerRead addr (h.load addr s).1)
    hload.sound)
  exact ⟨hsame, hshows.same hsame⟩

theorem gives_poll (hl : phy.isLane l) (addr mask value : UInt32) (more : Nat) {s : σ}
    (hs : phy.sound s) :
    Gives (h.poll addr mask value more) s fun r s' => phy.Same s s' ∧
      match r with
      | .ok w => w &&& mask = value ∧ Shows phy l addr w s'
      | .error w => w &&& mask ≠ value ∧ Shows phy l addr w s' := by
  refine gives_sampled ?_ ?_ mask value more ⟨hs, rfl, rfl, rfl⟩
  · intro s₁ hs₁
    obtain ⟨hsame, hw⟩ := gives_read hl hs₁.sound addr
    exact ⟨hs₁.trans hsame, hw⟩
  · intro n w s₁ hs₁ hw
    have hnotice := phy.report n hs₁.sound
    exact ⟨hs₁.trans hnotice, hw.same hnotice⟩

end

/-! ## Parts of an attempt -/

def MessageBus.laneOf (bus : MessageBus) (lane : UInt8) : BusLane := ⟨bus.port, lane⟩

section
variable {h : Host σ} {phy : BusPhy h} {bus : MessageBus} {lane : UInt8}
  {G : UInt32 → List Execution → Prop} {s₀ s s' : σ} {c : BusCommand} {addr : UInt16}

variable (phy bus lane G s₀) in
/-- An attempt is over, and no other will take its response for its own unless a
reset stands. -/
structure Recovered (s : σ) : Prop where
  during : During phy (bus.laneOf lane) G s₀ s
  rests : Rests phy (bus.laneOf lane) s

theorem Recovered.same (hs : Recovered phy bus lane G s₀ s) (hsame : phy.Same s s') :
    Recovered phy bus lane G s₀ s' where
  during := hs.during.same hsame
  rests := by
    unfold Rests
    rw [hsame.status, hsame.resetting]
    exact hs.rests

variable (hl : phy.isLane (bus.laneOf lane))
include hl

theorem gives_acknowledge (hG : Upheld (bus.laneOf lane) c addr G)
    (hs : During phy (bus.laneOf lane) G s₀ s) :
    Gives (bus.acknowledge h lane) s fun _ s' => Recovered phy bus lane G s₀ s' ∧
      phy.executed s' = phy.executed s := by
  have hrevise (x : UInt32) : Gives (h.reviseBits (bus.laneOf lane).status x
      (BusWord.responseReady ||| BusWord.errorSet)) s fun _ s' =>
        Recovered phy bus lane G s₀ s' ∧ phy.executed s' = phy.executed s := by
    refine gives_bind (gives_read hl hs.sound _) fun w s₁ hread => ?_
    let value := (w &&& ~~~x) ||| (BusWord.responseReady ||| BusWord.errorSet)
    have hsame := hread.1.trans (phy.report
      (ApertureNotice.registerWrite (bus.laneOf lane).status value) hread.1.sound)
    obtain ⟨hbut, hstatus, -, hexecuted⟩ := phy.storeStatus value hsame.sound hl
    have hclear := BusWord.cleared_ready (phy.status s (bus.laneOf lane)) (w &&& ~~~x)
      BusWord.errorSet
    have hs₁ := hs.same hsame
    obtain ⟨done, hdone, -⟩ := hs₁.upheld
    rw [hsame.status] at hstatus
    -- writing the bit clears it, whatever else is written back
    rw [← hstatus] at hclear
    have hs₂ := hs₁.sameBut hbut ⟨done, hexecuted.trans hdone, hG.cleared hclear⟩
    exact ⟨⟨hs₂, fun hready => absurd hclear hready⟩, hexecuted.trans hsame.executed⟩
  exact hrevise 0

theorem gives_writeReset (hs : During phy (bus.laneOf lane) G s₀ s) :
    Gives (h.write (bus.laneOf lane).control BusWord.reset) s
      fun _ s' => During phy (bus.laneOf lane) G s₀ s' := by
  have hnotice := phy.report
    (ApertureNotice.registerWrite (bus.laneOf lane).control BusWord.reset) hs.sound
  have hs₁ := hs.same hnotice
  obtain ⟨hbut, hstatus, hexecuted⟩ := phy.storeReset hnotice.sound hl
  have hupheld := hs₁.upheld
  rw [← hstatus, ← hexecuted] at hupheld
  exact hs₁.sameBut hbut hupheld

theorem gives_resetLane (hG : Upheld (bus.laneOf lane) c addr G)
    (hs : During phy (bus.laneOf lane) G s₀ s) :
    Gives (bus.resetLane h lane) s fun _ s' => Recovered phy bus lane G s₀ s' := by
  refine gives_bind (gives_writeReset hl hs) fun _ s₁ hs₁ => ?_
  refine gives_bind (gives_poll hl _ _ _ _ hs₁.sound) fun waited s₂ hpolled => ?_
  obtain ⟨hsame, hwaited⟩ := hpolled
  have hs₂ := hs₁.same hsame
  cases waited with
  | error w =>
    have hstands : phy.resetting s₂ (bus.laneOf lane) = true := hwaited.2.control rfl hwaited.1
    have hrecovered : Recovered phy bus lane G s₀ s₂ := ⟨hs₂, fun _ => hstands⟩
    exact hrecovered.same (phy.report (BusNotice.resetStuck bus.port lane) hs₂.sound)
  | ok w => exact (gives_acknowledge hl hG hs₂).1

theorem gives_abandon (hG : Upheld (bus.laneOf lane) c addr G)
    (hs : During phy (bus.laneOf lane) G s₀ s) (n : BusNotice) (e : Failure) {Q : α → σ → Prop} :
    Gives (bus.abandon h lane n e).run s (upon Q fun s => Recovered phy bus lane G s₀ s) :=
  gives_resetLane hl hG (hs.same (phy.report n hs.sound))

theorem gives_awaitIdle (hG : Upheld (bus.laneOf lane) c addr G)
    (hs : During phy (bus.laneOf lane) G s₀ s) (reason : IdleReason) :
    Gives (bus.awaitIdle h lane reason).run s
      (upon (fun _ s => During phy (bus.laneOf lane) G s₀ s)
        fun s => Recovered phy bus lane G s₀ s) := by
  refine gives_then (gives_call (gives_poll hl _ _ _ _ hs.sound)) fun waited s₁ hpolled => ?_
  have hs₁ := hs.same hpolled.1
  cases waited with
  | error w => exact gives_abandon hl hG hs₁ _ _
  | ok w => exact hs₁

theorem gives_request (hG : Upheld (bus.laneOf lane) c (addr &&& 0xFFF) G)
    (hs : During phy (bus.laneOf lane) G s₀ s) (value : UInt8) :
    Gives (h.write (bus.laneOf lane).control (BusWord.request c addr value)) s
      fun _ s => During phy (bus.laneOf lane) G s₀ s := by
  have hnotice := phy.report (ApertureNotice.registerWrite (bus.laneOf lane).control
    (BusWord.request c addr value)) hs.sound
  have hs₁ := hs.same hnotice
  obtain ⟨hbut, htransacted⟩ := phy.storeRequest c addr value hnotice.sound hl
  obtain ⟨done, hdone, hbefore⟩ := hs₁.upheld
  rw [hdone] at htransacted
  obtain ⟨new, hnew, hone⟩ := htransacted.suffix
  exact hs₁.sameBut hbut ⟨new, hnew, hG.transacted hone hbefore⟩

theorem gives_awaitResponse (hG : Upheld (bus.laneOf lane) c addr G)
    (hs : During phy (bus.laneOf lane) G s₀ s) (expected : BusResponse) :
    Gives (bus.awaitResponse h lane expected).run s
      (upon (fun w s => During phy (bus.laneOf lane) G s₀ s ∧
          w = phy.status s (bus.laneOf lane) ∧ w &&& BusWord.responseReady ≠ 0 ∧
            w &&& BusWord.errorSet = 0 ∧
              BusResponse.ofCode? (BusWord.command.get w) = some expected)
        fun s => Recovered phy bus lane G s₀ s) := by
  have hresponse := gives_responded expected (fun mask value more =>
    gives_poll hl (bus.laneOf lane).status mask value more hs.sound)
    fun n e Q s₁ hsame => gives_abandon hl hG (hs.same hsame) n e
  refine hresponse.imp (fun w s₁ hs₁ => ?_) fun _ => id
  obtain ⟨hsame, hshows, hready, hnone, hcode⟩ := hs₁
  exact ⟨hs.same hsame, hshows.status rfl hready, hready, hnone, hcode⟩

/-! ## Attempts -/

/-- The byte has been read since the call began, or is what a response said that
stood there before. -/
def Answered (phy : BusPhy h) (l : BusLane) (addr : UInt16) (s₀ : σ) (value : UInt8) (s : σ) :
    Prop :=
  (∃ done, phy.executed s = done ++ phy.executed s₀ ∧
    (⟨l, .read, addr, value⟩ : Execution) ∈ done) ∨
    (IsReadAck (phy.status s₀ l) ∧ value = BusWord.byte (phy.status s₀ l))

theorem gives_attemptRead {start : UInt32} (hstart : start = phy.status s₀ (bus.laneOf lane))
    (hs : During phy (bus.laneOf lane) (Vouched (bus.laneOf lane) (addr &&& 0xFFF) start) s₀ s) :
    Gives (bus.attemptRead h lane addr).run s
      (upon (fun value s =>
          Recovered phy bus lane (Vouched (bus.laneOf lane) (addr &&& 0xFFF) start) s₀ s ∧
            Answered phy (bus.laneOf lane) (addr &&& 0xFFF) s₀ value s)
        fun s =>
          Recovered phy bus lane (Vouched (bus.laneOf lane) (addr &&& 0xFFF) start) s₀ s) := by
  have hG := upheld_vouched (bus.laneOf lane) (addr &&& 0xFFF) start
  refine gives_then (gives_awaitIdle hl hG hs _) fun _ s₁ hs₁ => ?_
  refine gives_then (gives_call (gives_request hl hG hs₁ 0)) fun _ s₂ hs₂ => ?_
  refine gives_then (gives_awaitResponse hl hG hs₂ .readAck) fun w s₃ hs₃ => ?_
  obtain ⟨hs₃, hw, hready, hnone, hcode⟩ := hs₃
  refine gives_then (gives_call (gives_acknowledge hl hG hs₃)) fun _ s₄ hs₄ => ?_
  obtain ⟨hrecovered, hexecuted⟩ := hs₄
  refine ⟨hrecovered, ?_⟩
  -- the word was there when the response was taken, so it is vouched for
  obtain ⟨done, hdone, hvouched⟩ := hs₃.upheld
  rw [← hw] at hvouched
  have hack : IsReadAck w := ⟨hready, hnone, hcode⟩
  rcases hvouched hack with hold | hfresh
  · rw [hold, hstart] at hack
    rw [hold, hstart]
    exact .inr ⟨hack, rfl⟩
  · exact .inl ⟨done, hexecuted.trans hdone, hfresh⟩

theorem gives_awaitWritten (hG : Upheld (bus.laneOf lane) c addr G)
    (hs : During phy (bus.laneOf lane) G s₀ s) (committed : Bool) :
    Gives (bus.awaitWritten h lane committed).run s
      (upon (fun _ s => During phy (bus.laneOf lane) G s₀ s)
        fun s => Recovered phy bus lane G s₀ s) := by
  unfold MessageBus.awaitWritten
  split
  · exact gives_discard (gives_awaitResponse hl hG hs .writeAck) fun _ _ hs₁ => hs₁.1
  · refine gives_then (gives_call (gives_read hl hs.sound _)) fun w s₁ hread => ?_
    have hs₁ := hs.same hread.1
    split
    · exact gives_abandon hl hG hs₁ _ _
    · exact hs₁

theorem gives_attemptWrite (hG : ∀ c, Upheld (bus.laneOf lane) c (addr &&& 0xFFF) G)
    (hs : During phy (bus.laneOf lane) G s₀ s) (value : UInt8) (committed : Bool) :
    Gives (bus.attemptWrite h lane addr value committed).run s
      (upon (fun _ s => Recovered phy bus lane G s₀ s) fun s => Recovered phy bus lane G s₀ s) := by
  have hcommand := hG (if committed then .writeCommitted else .writeUncommitted)
  refine gives_then (gives_awaitIdle hl hcommand hs _) fun _ s₁ hs₁ => ?_
  refine gives_then (gives_call (gives_request hl hcommand hs₁ value)) fun _ s₂ hs₂ => ?_
  refine gives_then (gives_awaitIdle hl hcommand hs₂ _) fun _ s₃ hs₃ => ?_
  refine gives_then (gives_awaitWritten hl hcommand hs₃ committed) fun _ s₄ hs₄ => ?_
  exact (gives_acknowledge hl hcommand hs₄).1

end

/-! ## Calls -/

section
variable {h : Host σ} {attempt : Fallible σ α} {Q : α → σ → Prop} {R : σ → Prop}
  (hattempt : ∀ s, R s → Gives attempt.run s (upon Q R))
  (hreport : ∀ n s, R s → R (h.report n s).2)
include hattempt hreport

theorem gives_attempts (n : Nat → Failure → Notice) :
    ∀ (left made : Nat) (last : Failure) {s : σ}, R s →
      Gives (MessageBus.attempts h attempt n made last left).run s (upon Q R)
  | 0, _, _, _, hs => hs
  | left + 1, made, last, s, hs => by
    have hone := hattempt s hs
    unfold Gives at hone ⊢
    rw [MessageBus.attempts_run]
    rcases hrun : attempt.run s with ⟨e | a, s'⟩ <;> rw [hrun] at hone
    · exact gives_attempts n left (made + 1) e (hreport _ _ hone)
    · exact hone

theorem gives_retrying (bus : MessageBus) (lane : UInt8) (direction : Direction) (addr : UInt16)
    {s : σ} (hs : R s) : Gives (bus.retrying h lane direction addr attempt).run s (upon Q R) := by
  have htried := gives_attempts hattempt hreport
    (fun i e => BusNotice.attemptFailed bus.port direction addr i e) bus.limits.retries.toNat 0
    (bus.timeout lane) hs
  unfold Gives at htried ⊢
  rw [bus.retrying_run]
  rcases hrun : (MessageBus.attempts h attempt
      (fun i e => BusNotice.attemptFailed bus.port direction addr i e) 0 (bus.timeout lane)
      bus.limits.retries.toNat).run s with ⟨e | a, s'⟩ <;> rw [hrun] at htried
  · exact hreport _ _ htried
  · exact htried

end

inductive ByteCall where
  | read (bus : MessageBus) (lane : UInt8) (addr : UInt16)
  | write (bus : MessageBus) (lane : UInt8) (addr : UInt16) (value : UInt8) (committed : Bool)

namespace ByteCall

def lane : ByteCall → BusLane
  | read bus lane _ => bus.laneOf lane
  | write bus lane .. => bus.laneOf lane

def leave (h : Host σ) (s : σ) : ByteCall → σ
  | read bus lane addr => ((bus.readByte h lane addr).run s).2
  | write bus lane addr value committed => ((bus.writeByte h lane addr value committed).run s).2

end ByteCall

section
variable {h : Host σ} {phy : BusPhy h} {s s₀ : σ}

variable (phy) in
/-- The PHY between calls: a response stands only on lanes that are resetting. -/
structure Between (s : σ) : Prop where
  sound : phy.sound s
  rests : ∀ l, phy.isLane l → Rests phy l s

variable {bus : MessageBus} {lane : UInt8} {addr : UInt16} {G : UInt32 → List Execution → Prop}

theorem Recovered.between (hs : Recovered phy bus lane G s₀ s) (h₀ : Between phy s₀) :
    Between phy s where
  sound := hs.during.sound
  rests l hl := by
    by_cases hsame : l = bus.laneOf lane
    · rw [hsame]
      exact hs.rests
    · unfold Rests
      rw [hs.during.status l hl hsame, hs.during.resetting l hl hsame]
      exact h₀.rests l hl

theorem Between.recovered (h₀ : Between phy s₀) (hl : phy.isLane (bus.laneOf lane))
    (hG : G (phy.status s₀ (bus.laneOf lane)) []) : Recovered phy bus lane G s₀ s₀ where
  during := ⟨h₀.sound, fun _ _ _ => rfl, fun _ _ _ => rfl, [], rfl, hG⟩
  rests := h₀.rests _ hl

variable (hl : phy.isLane (bus.laneOf lane)) (h₀ : Between phy s₀)
include hl h₀

theorem gives_readByte (addr : UInt16) :
    let V := Vouched (bus.laneOf lane) (addr &&& 0xFFF) (phy.status s₀ (bus.laneOf lane))
    Gives (bus.readByte h lane addr).run s₀
      (upon (fun value s => Recovered phy bus lane V s₀ s ∧
          Answered phy (bus.laneOf lane) (addr &&& 0xFFF) s₀ value s)
        fun s => Recovered phy bus lane V s₀ s) := by
  intro V
  have hattempt : ∀ s, Recovered phy bus lane V s₀ s →
      Gives (do
          let value ← bus.attemptRead h lane addr
          h.report (BusNotice.byteRead bus.port lane addr value)
          return value : Fallible σ UInt8).run s
        (upon (fun value s => Recovered phy bus lane V s₀ s ∧
            Answered phy (bus.laneOf lane) (addr &&& 0xFFF) s₀ value s)
          fun s => Recovered phy bus lane V s₀ s) := by
    intro s hs
    refine gives_then (gives_attemptRead hl rfl hs.during) fun value s₁ hs₁ => ?_
    obtain ⟨hrecovered, hanswered⟩ := hs₁
    have hnotice := phy.report (BusNotice.byteRead bus.port lane addr value) hrecovered.during.sound
    refine ⟨hrecovered.same hnotice, ?_⟩
    rcases hanswered with ⟨done, hdone, hmem⟩ | hold
    · exact .inl ⟨done, hnotice.executed.trans hdone, hmem⟩
    · exact .inr hold
  have hreport (n : Notice) (s : σ) (hs : Recovered phy bus lane V s₀ s) :
      Recovered phy bus lane V s₀ (h.report n s).2 := hs.same (phy.report n hs.during.sound)
  exact gives_retrying hattempt hreport bus lane .read addr (h₀.recovered hl fun _ => .inl rfl)

theorem gives_writeByte (addr : UInt16) (value : UInt8) (committed : Bool) :
    let T : UInt32 → List Execution → Prop := fun _ _ => True
    Gives (bus.writeByte h lane addr value committed).run s₀
      (upon (fun _ s => Recovered phy bus lane T s₀ s) fun s => Recovered phy bus lane T s₀ s) := by
  intro T
  have hattempt : ∀ s, Recovered phy bus lane T s₀ s →
      Gives (do
          bus.attemptWrite h lane addr value committed
          h.report (BusNotice.byteWritten bus.port lane addr value) : Fallible σ Unit).run s
        (upon (fun _ s => Recovered phy bus lane T s₀ s)
          fun s => Recovered phy bus lane T s₀ s) := by
    intro s hs
    have hT (c : BusCommand) : Upheld (bus.laneOf lane) c (addr &&& 0xFFF) T := upheld_true _ c _
    refine gives_then (gives_attemptWrite hl hT hs.during value committed) fun _ s₁ hs₁ => ?_
    exact hs₁.same (phy.report _ hs₁.during.sound)
  have hreport (n : Notice) (s : σ) (hs : Recovered phy bus lane T s₀ s) :
      Recovered phy bus lane T s₀ (h.report n s).2 := hs.same (phy.report n hs.during.sound)
  exact gives_retrying hattempt hreport bus lane .write addr (h₀.recovered hl trivial)

end

theorem between_call {h : Host σ} {phy : BusPhy h} {s : σ} (hs : Between phy s) (c : ByteCall)
    (hc : phy.isLane c.lane) : Between phy (c.leave h s) := by
  cases c with
  | read bus lane addr =>
    have hgives := gives_readByte hc hs addr
    exact hgives.either (fun _ _ h => h.1.between hs) fun _ h => h.between hs
  | write bus lane addr value committed =>
    have hgives := gives_writeByte hc hs addr value committed
    exact hgives.either (fun _ _ h => h.between hs) fun _ h => h.between hs

theorem between_calls {h : Host σ} {phy : BusPhy h} :
    ∀ (calls : List ByteCall), (∀ c ∈ calls, phy.isLane c.lane) → ∀ {s : σ}, Between phy s →
      Between phy (calls.foldl (ByteCall.leave h) s)
  | [], _, _, hs => hs
  | c :: calls, hcalls, _, hs =>
    between_calls calls (fun c hc => hcalls c (List.mem_cons_of_mem _ hc))
      (between_call hs c (hcalls c List.mem_cons_self))

/-- From a start with all responses cleared, whatever is read and written: between
calls a response stands only on a lane whose reset has not come back. A read that
succeeds answers with the byte of a read of that address which the PHY executed
during the call, or else its lane was resetting when the call began and it answers
with the response that stood there. -/
theorem reads_executed_or_left {h : Host σ} (phy : BusPhy h) (s : σ) (hs : phy.sound s)
    (hclear : ∀ l, phy.isLane l → phy.status s l &&& BusWord.responseReady = 0)
    (calls : List ByteCall) (hcalls : ∀ c ∈ calls, phy.isLane c.lane) :
    let left := calls.foldl (ByteCall.leave h) s
    (∀ l, phy.isLane l → phy.status left l &&& BusWord.responseReady ≠ 0 →
        phy.resetting left l = true) ∧
      ∀ (bus : MessageBus) (lane : UInt8) (addr : UInt16), phy.isLane (bus.laneOf lane) →
        let ended := (bus.readByte h lane addr).run left
        ∀ value, ended.1 = .ok value →
          (∃ done, phy.executed ended.2 = done ++ phy.executed left ∧
            (⟨bus.laneOf lane, .read, addr &&& 0xFFF, value⟩ : Execution) ∈ done) ∨
          (phy.resetting left (bus.laneOf lane) = true ∧
            IsReadAck (phy.status left (bus.laneOf lane)) ∧
              value = BusWord.byte (phy.status left (bus.laneOf lane))) := by
  intro left
  have hstart : Between phy s := ⟨hs, fun l hl hready => absurd (hclear l hl) hready⟩
  have hleft : Between phy left := between_calls calls hcalls hstart
  refine ⟨hleft.rests, ?_⟩
  intro bus lane addr hl ended value hvalue
  have hgives := gives_readByte hl hleft addr
  obtain ⟨-, hfresh | ⟨hack, hbyte⟩⟩ := hgives.ok hvalue
  · exact .inl hfresh
  · exact .inr ⟨hleft.rests _ hl hack.ready, hack, hbyte⟩

theorem reads_executed_or_left_delayed :
    let bus : MessageBus := ⟨0, ⟨0, 1⟩⟩
    let bytes := (Store.empty.set ⟨0, 0, 0xC05⟩ 0x5A).set ⟨0, 0, 0xC06⟩ 0x17
    let left := [ByteCall.read bus 0 0xC05].foldl (ByteCall.leave Played.host)
      (Played.untouched 1 bytes 0 [.delay 5, .ok])
    let ended := (bus.readByte Played.host 0 0xC06).run left
    ended.1 = .ok 0x17 ∧ ∃ done, ended.2.executed = done ++ left.executed ∧
      (⟨⟨0, 0⟩, .read, 0xC06, 0x17⟩ : Execution) ∈ done := by
  intro bus bytes left ended
  have hs : (Played.untouched 1 bytes 0 [.delay 5, .ok]).hardware.Sound 1 :=
    Played.sound_untouched 1 bytes 0 (by simp)
  have hlane : Hardware.HasLane 1 (bus.laneOf 0) := ⟨Nat.one_pos, .inl rfl⟩
  have hok : ended.1 = .ok 0x17 := by decide +kernel
  obtain ⟨-, hreads⟩ := reads_executed_or_left (Played.phy 1 (by decide)) _ hs
    (fun l _ => Played.clear_untouched 1 bytes 0 _ l) [.read bus 0 0xC05]
    (List.forall_mem_singleton.mpr hlane)
  rcases hreads bus 0 0xC06 hlane 0x17 hok with hfresh | ⟨hresetting, -⟩
  · exact ⟨hok, hfresh⟩
  · exact absurd hresetting (by decide +kernel)

/-- The first read is executed late and its reset stays stuck, so its response is
left on the lane. The second read hangs and takes it. -/
theorem read_takes_left_response :
    let bus : MessageBus := ⟨0, ⟨0, 1⟩⟩
    let bytes := (Store.empty.set ⟨0, 0, 0xC05⟩ 0x5A).set ⟨0, 0, 0xC06⟩ 0x17
    let start := Played.untouched 1 bytes 1 [.delay 5, .hang]
    let left := [ByteCall.read bus 0 0xC05].foldl (ByteCall.leave Played.host) start
    let ended := (bus.readByte Played.host 0 0xC06).run left
    start.hardware.Sound 1 ∧
      (∀ l, (Played.view 1).status start l &&& BusWord.responseReady = 0) ∧
        ended.1 = .ok 0x5A ∧ ¬ ∃ done, ended.2.executed = done ++ left.executed ∧
          (⟨⟨0, 0⟩, .read, 0xC06, 0x5A⟩ : Execution) ∈ done := by
  intro bus bytes start left ended
  have hs : start.hardware.Sound 1 := Played.sound_untouched 1 bytes 1 (by simp)
  have hexecuted : ended.2.executed = left.executed := by decide +kernel
  refine ⟨hs, Played.clear_untouched 1 bytes 1 _, by decide +kernel, ?_⟩
  rintro ⟨done, hdone, hmem⟩
  rw [hexecuted, List.self_eq_append_left] at hdone
  rw [hdone] at hmem
  exact List.not_mem_nil hmem

end Retune
