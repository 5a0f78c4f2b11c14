import Retune.Proofs.BusDividers
import Retune.Proofs.Restore

/-!
# Rollbacks over the message bus

A rollback of a C10 or C20 PLL programs the dividers that were captured, and with that
the adjustment is over, whether or not the PHY has taken them. If it has, the PLL runs on
them until something else is programmed. If it has not, a failure is reported, and the
next adjustment takes what is left for what is to be restored.
-/

namespace Retune

variable {δ σ : Type}

structure PhyStation {σ : Type} (h : Host σ) (st : Station σ) extends MemoryPhy h where
  stationReport : ∀ {s} n, sound s → toMemoryView.Same s (st.report n s).2
  stopRequested : ∀ {s} signal, sound s → toMemoryView.Same s (st.stopRequested signal s).2
  pause : ∀ {s} ms, sound s → toMemoryView.Same s (st.pause ms s).2
  armTimer : ∀ {s} ms g, sound s → toMemoryView.Same s (st.armTimer ms g s).2
  cancelTimer : ∀ {s} id, sound s → toMemoryView.Same s (st.cancelTimer id s).2
  elapse : ∀ {s}, sound s → toMemoryView.Same s (st.elapse s).2

/-! ## What a rollback leaves -/

/-- Where the last rollback went back to, and with which device, if it succeeded and
nothing has been programmed since. -/
def reverted? (dev : Adjustable δ σ) : List (Event δ σ) → Option (δ × σ)
  | .restored _ :: .programmed d .found w :: older =>
    match (dev.program d .found w).1 with
    | .ok () => (baseline? older).map fun b => (d, b)
    | .error _ => none
  | .captured _ :: older | .armed _ _ :: older => reverted? dev older
  | _ => none

section
variable {h : Host σ} (st : Station σ) (phy : MemoryPhy h)

/-- From `w` to `s` a rollback has programmed what `d` had found in `b`. -/
structure Reversal (d : Pll) (b w s : σ) : Prop where
  found : d.FoundLive (phy.memory b)
  left : s = Controller.reprogram st (Pll.adjustable h) d w
  succeeded : ((d.program h .found).run w).1 = .ok () →
    d.live (phy.memory s) = d.live (phy.memory b)
  failed : ∀ e, ((d.program h .found).run w).1 = .error e →
    IsMixOf (d.live (phy.memory w)) (d.live (phy.memory b)) (d.live (phy.memory s))

/-- A rollback has programmed what was captured in the baseline, and a capture after one
that succeeded finds the dividers of its baseline. -/
def Event.reverts : Event Pll σ → List (Event Pll σ) → Prop
  | .restored s, older => ∃ d w rest b, older = .programmed d .found w :: rest ∧
      baseline? rest = some b ∧ Reversal st phy d b w s
  | .captured s, older => ∀ d b, reverted? (Pll.adjustable h) older = some (d, b) →
      d.live (phy.memory s) = d.live (phy.memory b)
  | _, _ => True

end

section
variable {h : Host σ} {st : Station σ} (phy : PhyStation h st) (bus : MessageBus)

/-- An adjustment remembers the dividers it captured until it is over. -/
structure Guarding (c : Controller Pll) (r : Recorded Pll σ) : Prop where
  ready : phy.Ready bus r.world
  behind : c.device.IsBehind bus
  underway : c.progress.phase.isUnderway →
    ∃ b, lastCapture? r.events = some b ∧ c.device.FoundLive (phy.memory b)
  owing : c.progress.phase.isOwing →
    ∃ b, baseline? r.events = some b ∧ c.device.FoundLive (phy.memory b)
  undone : c.progress.phase.isOwing → c.progress.done = false
  reverted : ∀ d b, reverted? (Pll.adjustable h) r.events = some (d, b) →
    d.family = c.device.family ∧ d.live (phy.memory r.world) = d.live (phy.memory b)
  reverts : Throughout (Event.reverts st phy.toMemoryPhy) r.events

variable {phy bus} {c c' : Controller Pll} {r r' : Recorded Pll σ}

theorem Guarding.unarmed (hg : Guarding phy bus c r)
    (hover : c.progress.phase = .done ∨ c.progress.done = true) : c.isArmed = false := by
  refine Bool.eq_false_iff.mpr fun harmed => ?_
  have hphase := Controller.isArmed_iff.mp harmed
  rcases hover with hover | hover
  · rw [hphase] at hover
    cases hover
  · have hundone := hg.undone (by rw [hphase]; rfl)
    rw [hover] at hundone
    cases hundone

/-! ## Steps -/

theorem Guarding.quiet (hg : Guarding phy bus c r) (hs : phy.Same r.world r'.world)
    (he : r'.events = r.events) (hd : c'.device = c.device)
    (hu : c'.progress.phase.isUnderway → c.progress.phase.isUnderway)
    (ho : c'.progress.phase.isOwing → c.progress.phase.isOwing)
    (hdone : c'.progress.phase.isOwing → c'.progress.done = c.progress.done) :
    Guarding phy bus c' r' := by
  obtain ⟨hready, hbehind, hunderway, howing, hundone, hreverted, hreverts⟩ := hg
  refine ⟨hready.same hs, ?_, fun h => ?_, fun h => ?_, fun h => ?_, ?_, ?_⟩
  · rw [hd]
    exact hbehind
  · rw [hd, he]
    exact hunderway (hu h)
  · rw [hd, he]
    exact howing (ho h)
  · exact (hdone h).trans (hundone (ho h))
  · rw [hd, he, hs.memory]
    exact hreverted
  · rw [he]
    exact hreverts

theorem Guarding.retuned (hg : Guarding phy bus c r) {d : Pll}
    (hd : d.asFound = c.device.asFound) : Guarding phy bus { c with device := d } r where
  ready := hg.ready
  behind := by
    rw [← Pll.isBehind_asFound, hd, Pll.isBehind_asFound]
    exact hg.behind
  underway hu := (hg.underway hu).imp fun b hb => by
    rw [← Pll.foundLive_asFound, hd, Pll.foundLive_asFound]
    exact hb
  owing ho := (hg.owing ho).imp fun b hb => by
    rw [← Pll.foundLive_asFound, hd, Pll.foundLive_asFound]
    exact hb
  undone := hg.undone
  reverted d' b hb := by
    rw [← Pll.family_asFound d, hd, Pll.family_asFound]
    exact hg.reverted d' b hb
  reverts := hg.reverts

theorem Guarding.programmed (hg : Guarding phy bus c r) {s : σ} (hs : phy.Ready bus s) (d : Pll)
    (v : Version) (w : σ) : Guarding phy bus c ⟨s, .programmed d v w :: r.events⟩ where
  ready := hs
  behind := hg.behind
  underway := hg.underway
  owing := hg.owing
  undone := hg.undone
  reverted := nofun
  reverts := .cons trivial hg.reverts

theorem same_retune (phy : MemoryPhy h) {p : Pll} {clock : Float} {x : Except Failure Pll} {s s' : σ}
    (hs : phy.sound s) (hrun : (Pll.adjustable h).retune p clock s = (x, s')) : phy.Same s s' := by
  have hsame := p.retune_untouched phy clock hs
  rw [show (p.retune h clock).run s = (x, s') from hrun] at hsame
  exact hsame

theorem Guarding.retune (hg : Guarding phy bus c r) {clock : Float} {d : Pll}
    (hr : (Pll.adjustable h).recorded.retune c.device clock r = (.ok d, r')) :
    Guarding phy bus { c with device := d } r' := by
  obtain ⟨hrun, hevents⟩ := recorded_retune hr
  have hsame := same_retune phy.toMemoryPhy hg.ready.sound hrun
  exact (hg.retuned (Pll.asFound_retuned hrun)).quiet hsame hevents rfl id id fun _ => rfl

section
variable (hport : ∀ lane, lane = 0 ∨ lane = 1 → phy.isLane (bus.laneOf lane))
include hport

theorem ready_program {p : Pll} (hp : p.IsBehind bus) {s : σ} (hs : phy.Ready bus s) (v : Version) :
    phy.Ready bus ((Pll.adjustable h).program p v s).2 := by
  have hgives := Pll.gives_program hport hp hs v
  exact hgives.either (T := phy.Ready bus) (fun _ _ hs' => hs.passed hport hs')
    fun _ hs' => hs.passed hport hs'

theorem Guarding.capture (hg : Guarding phy bus c r) {x : Except Failure Unit} {d : Pll}
    (hphase : c.progress.phase.isResting)
    (hr : (Pll.adjustable h).recorded.capture c.device r = ((x, d), r')) :
    Guarding phy bus { c with device := d } r' ∧
      (x = .ok () → d.FoundLive (phy.memory r.world)) ∧ lastCapture? r'.events = some r.world := by
  obtain ⟨hrun, hevents⟩ := recorded_capture hr
  obtain ⟨hbehind, hfamily, hpassed, hfound⟩ := Pll.capture_live hport hg.behind hg.ready hrun
  refine ⟨⟨hg.ready.passed hport hpassed, hbehind, fun hu => ?_, fun ho => ?_, hg.undone, ?_, ?_⟩,
    hfound, ?_⟩
  · exact absurd ((Phase.isUnderway_of_resting hphase).symm.trans hu) Bool.false_ne_true
  · exact absurd ((Phase.isOwing_of_resting hphase).symm.trans ho) Bool.false_ne_true
  · rw [hevents]
    intro d' b hb
    obtain ⟨hfamily', hlive⟩ := hg.reverted d' b hb
    refine ⟨hfamily'.trans hfamily.symm, ?_⟩
    exact (Pll.live_of_untouched hfamily' hpassed.memory).trans hlive
  · rw [hevents]
    exact .cons (fun d' b hb => (hg.reverted d' b hb).2) hg.reverts
  · rw [hevents]
    rfl

theorem reversal {p : Pll} (hp : p.IsBehind bus) {b w : σ} (hfound : p.FoundLive (phy.memory b))
    (hw : phy.Ready bus w) :
    phy.Ready bus (Controller.reprogram st (Pll.adjustable h) p w) ∧
      Reversal st phy.toMemoryPhy p b w (Controller.reprogram st (Pll.adjustable h) p w) := by
  have hgives := Pll.gives_program hport hp hw .found
  unfold Gives at hgives
  obtain ⟨hplaced, hwanted⟩ := hfound
  rcases hrun : (p.program h .found).run w with ⟨e | u, s⟩ <;> rw [hrun] at hgives
  · have hreprogram : Controller.reprogram st (Pll.adjustable h) p w =
        (st.report (AdjustmentNotice.restoreFailed e) s).2 := by
      unfold Controller.reprogram
      rw [show (Pll.adjustable h).program p .found w = (.error e, s) from hrun]
    have hnotice := phy.stationReport (AdjustmentNotice.restoreFailed e) hgives.sound
    refine ⟨?_, ⟨hplaced, hwanted⟩, rfl, fun hok => ?_, fun _ _ => ?_⟩
    · rw [hreprogram]
      exact (hw.passed hport hgives).same hnotice
    · rw [hrun] at hok
      cases hok
    · rw [hreprogram, hnotice.memory, ← hwanted]
      exact hgives.memory hplaced
  · have hreprogram : Controller.reprogram st (Pll.adjustable h) p w = s := by
      unfold Controller.reprogram
      rw [show (Pll.adjustable h).program p .found w = (.ok u, s) from hrun]
    refine ⟨?_, ⟨hplaced, hwanted⟩, rfl, fun _ => ?_, fun e he => ?_⟩
    · rw [hreprogram]
      exact hw.passed hport hgives
    · rw [hreprogram]
      exact (hgives.memory hplaced).trans hwanted
    · rw [hrun] at he
      cases he

end

theorem same_disarm (p : Progress) {s : σ} (hs : phy.sound s) :
    phy.Same s (Controller.disarm st p s) := by
  unfold Controller.disarm
  cases p.timer with
  | none => exact ⟨hs, id, rfl, rfl⟩
  | some id => exact phy.cancelTimer id hs

theorem reverted_restored {p : Pll} {s w : σ} {older : List (Event Pll σ)} {d : Pll} {b : σ}
    (hd : reverted? (Pll.adjustable h) (.restored s :: .programmed p .found w :: older) =
      some (d, b)) :
    d = p ∧ baseline? older = some b ∧ ((p.program h .found).run w).1 = .ok () := by
  unfold reverted? at hd
  split at hd
  · next hok =>
    obtain ⟨b', hb, heq⟩ := Option.map_eq_some_iff.mp hd
    cases heq
    exact ⟨rfl, hb, hok⟩
  · cases hd

theorem guarding_step (hport : ∀ lane, lane = 0 ∨ lane = 1 → phy.isLane (bus.laneOf lane))
    {K : Pll → Prop} {x : Scope σ}
    (hout : ∀ f, x.outside f → ∀ s, phy.sound s → phy.Same s (f s))
    (a b : Controller Pll × Recorded Pll σ)
    (hstep : Controller.Step (st.recorded Pll) (Pll.adjustable h).recorded K (x.recorded Pll) a b)
    (hg : Guarding phy bus a.1 a.2) : Guarding phy bus b.1 b.2 := by
  have hsound : phy.sound a.2.world := hg.ready.sound
  -- `began` finds the baseline, `armed` makes it owed and `restored` pays; the others keep it
  cases hstep with
  | noticed n hn =>
    rw [recorded_report hn]
    exact hg.quiet (phy.stationReport n hsound) rfl rfl id id fun _ => rfl
  | asked signal => exact hg.quiet (phy.stopRequested signal hsound) rfl rfl id id fun _ => rfl
  | paused ms => exact hg.quiet (phy.pause ms hsound) rfl rfl id id fun _ => rfl
  | elapsed => exact hg.quiet (phy.elapse hsound) rfl rfl id id fun _ => rfl
  | @refused c r clock e r' hr =>
    obtain ⟨hrun, hevents⟩ := recorded_retune hr
    exact hg.quiet (same_retune phy.toMemoryPhy hsound hrun) hevents rfl id id fun _ => rfl
  | tried clock _ hr => exact hg.retune hr
  | @moved c r clock d r' _ _ hr =>
    have hg' := hg.retune hr
    exact hg'.programmed (ready_program hport hg'.behind hg'.ready .proposed) d .proposed r'.world
  | looked _ hphase hr => exact (hg.capture hport hphase hr).1
  | @began c r d r' _ hphase hr =>
    obtain ⟨hg', hfound, hlast⟩ := hg.capture hport hphase hr
    exact ⟨hg'.ready, hg'.behind, fun _ => ⟨_, hlast, hfound rfl⟩, nofun, nofun, hg'.reverted,
      hg'.reverts⟩
  | planned _ _ _ _ hphase =>
    exact hg.quiet ⟨hsound, id, rfl, rfl⟩ rfl rfl (fun _ => hphase) nofun nofun
  | entered hphase => exact hg.quiet ⟨hsound, id, rfl, rfl⟩ rfl rfl (fun _ => hphase) nofun nofun
  | @undone c r hphase _ =>
    have hg' : Guarding phy bus (c.update .finish) r :=
      hg.quiet ⟨hsound, id, rfl, rfl⟩ rfl rfl nofun nofun nofun
    exact hg'.programmed (ready_program hport hg.behind hg.ready .found) c.device .found r.world
  | finished _ => exact hg.quiet ⟨hsound, id, rfl, rfl⟩ rfl rfl nofun nofun nofun
  | @armed c r delayMs id r' hphase _ hr =>
    have hsame := phy.armTimer delayMs (c.progress.generation + 1) hsound
    cases hr
    refine ⟨hg.ready.same hsame, hg.behind, nofun, fun _ => hg.underway hphase, fun _ => rfl, ?_,
      .cons trivial hg.reverts⟩
    intro d b hb
    obtain ⟨hfamily, hlive⟩ := hg.reverted d b hb
    exact ⟨hfamily, (congrArg d.live hsame.memory).trans hlive⟩
  | retargeted _ _ => exact hg.quiet ⟨hsound, id, rfl, rfl⟩ rfl rfl id id fun _ => rfl
  | @taken c r hc =>
    rw [recorded_disarm]
    refine hg.quiet (same_disarm c.progress hsound) rfl rfl nofun (fun _ => ?_) fun _ => rfl
    rw [Controller.isArmed_iff.mp hc]
    rfl
  | @restored c r hphase _ =>
    obtain ⟨b, hb, hfound⟩ := hg.owing (by rw [hphase]; rfl)
    obtain ⟨hready, hreversal⟩ := reversal hport hg.behind hfound hg.ready
    have hsame := phy.stationReport (AdjustmentNotice.restored c.progress.foundClock) hready.sound
    rw [recorded_restore]
    refine ⟨hready.same hsame, hg.behind, nofun, nofun, nofun, fun d b' hd => ?_,
      .cons ⟨_, _, _, b, rfl, hb, hreversal⟩ (.cons trivial hg.reverts)⟩
    obtain ⟨rfl, hb', hok⟩ := reverted_restored hd
    obtain rfl : b = b' := Option.some.inj (hb.symm.trans hb')
    exact ⟨rfl, (congrArg _ hsame.memory).trans (hreversal.succeeded hok)⟩
  | outside g hg' =>
    obtain ⟨f, hf, rfl⟩ := hg'
    exact hg.quiet (hout f hf _ hsound) rfl rfl id id fun _ => rfl

end

/-! ## The bench -/

namespace Bench
variable {ports : Nat} {b b' : Bench} {p : Played} {l : BusLane}

def memoryView (ports : Nat) : MemoryView Bench where
  isLane := Hardware.HasLane ports
  sound b := b.hardware.Settles ports
  prompt b := b.hardware.Prompt ports
  lane b l := b.hardware.laneState l
  memory b := b.hardware.memory

theorem same_of_hardware (hb : b'.hardware = b.hardware) (hs : b.hardware.Settles ports) :
    (memoryView ports).Same b b' := by
  refine ⟨?_, fun hp => ?_, ?_, ?_⟩ <;> simp only [memoryView] at * <;> rw [hb]
  · exact hs
  · exact hp

theorem same_of_played (hb : b'.hardware = p.hardware)
    (h : (Played.memoryView ports).Same ⟨b.hardware, []⟩ p) : (memoryView ports).Same b b' := by
  obtain ⟨hsound, hprompt, hlane, hmemory⟩ := h
  refine ⟨?_, fun hp => ?_, ?_, ?_⟩ <;> simp only [memoryView] at * <;> rw [hb]
  · exact hsound
  · exact hprompt hp
  · exact hlane
  · exact hmemory

theorem sameBut_of_played (hb : b'.hardware = p.hardware)
    (h : (Played.memoryView ports).SameBut l ⟨b.hardware, []⟩ p) :
    (memoryView ports).SameBut l b b' := by
  obtain ⟨hsound, hprompt, hlane⟩ := h
  refine ⟨?_, fun hp => ?_, fun l' hl' hne => ?_⟩ <;> simp only [memoryView] at * <;> rw [hb]
  · exact hsound
  · exact hprompt hp
  · exact hlane l' hl' hne

theorem played_load (b : Bench) (addr : UInt32) : (host.load addr b).2.hardware =
    (Played.host.load addr ⟨b.hardware, []⟩).2.hardware := hardware_load b addr

theorem played_store (b : Bench) (addr w : UInt32) : (host.store addr w b).2.hardware =
    (Played.host.store addr w ⟨b.hardware, []⟩).2.hardware := hardware_store b addr w

def memoryPhy (ports : Nat) (hports : ports ≤ 256) : MemoryPhy host where
  toMemoryView := memoryView ports
  report n hs := same_of_hardware (hardware_hear _ n) hs
  load {b} addr hs := same_of_played (played_load b addr)
    ((Played.memoryPhy ports hports).load (s := ⟨b.hardware, []⟩) addr hs)
  loadStatus {b l} hs hl := (Played.memoryPhy ports hports).loadStatus (s := ⟨b.hardware, []⟩) hs hl
  loadError {b l} hs hl hp :=
    (Played.memoryPhy ports hports).loadError (s := ⟨b.hardware, []⟩) hs hl hp
  loadReset {b l} hs hl := (Played.memoryPhy ports hports).loadReset (s := ⟨b.hardware, []⟩) hs hl
  loadPending {b l} hs hl :=
    (Played.memoryPhy ports hports).loadPending (s := ⟨b.hardware, []⟩) hs hl
  storeReset {b l} hs hl := by
    obtain ⟨hbut, hlane, hmemory⟩ :=
      (Played.memoryPhy ports hports).storeReset (s := ⟨b.hardware, []⟩) hs hl
    have hb := played_store b l.control BusWord.reset
    exact ⟨sameBut_of_played hb hbut, (congrArg (·.laneState l) hb).trans hlane,
      (congrArg Hardware.memory hb).trans hmemory⟩
  storeStatus {b l} w hs hl := by
    obtain ⟨hbut, hlane, hmemory⟩ :=
      (Played.memoryPhy ports hports).storeStatus (s := ⟨b.hardware, []⟩) w hs hl
    have hb := played_store b l.status w
    exact ⟨sameBut_of_played hb hbut, (congrArg (fun hw => (hw.laneState l).status) hb).trans hlane,
      (congrArg Hardware.memory hb).trans hmemory⟩
  storeRequest {b l} c addr value hs hl := by
    obtain ⟨hbut, hhandled⟩ :=
      (Played.memoryPhy ports hports).storeRequest (s := ⟨b.hardware, []⟩) c addr value hs hl
    have hb := played_store b l.control (BusWord.request c addr value)
    refine ⟨sameBut_of_played hb hbut, ?_⟩
    show Handled c _ value _ _ ((host.store l.control _ b).2.hardware.laneState l).status
      (host.store l.control _ b).2.hardware.memory
      ((host.store l.control _ b).2.hardware.laneState l).waiting
    rw [hb]
    exact hhandled

def phyStation (ports : Nat) (hports : ports ≤ 256) (session : Nat) :
    (timers : TimerKind) → PhyStation host (Session.station session timers)
  | .byHand => {
      toMemoryPhy := memoryPhy ports hports
      stationReport := fun n hs => same_of_hardware (hardware_hear _ n) hs
      stopRequested := fun _ hs => same_of_hardware rfl hs
      pause := fun _ hs => same_of_hardware rfl hs
      armTimer := fun _ _ hs => same_of_hardware rfl hs
      cancelTimer := fun _ hs => same_of_hardware rfl hs
      elapse := fun hs => same_of_hardware rfl hs }
  | .ownWorker => {
      toMemoryPhy := memoryPhy ports hports
      stationReport := fun n hs => same_of_hardware (hardware_hear _ n) hs
      stopRequested := fun _ hs => same_of_hardware rfl hs
      pause := fun _ hs => same_of_hardware rfl hs
      armTimer := fun _ _ hs => same_of_hardware (hardware_hear _ _) hs
      cancelTimer := fun id hs => same_of_hardware (hardware_cancelTimer session id _) hs
      elapse := fun hs => same_of_hardware (hardware_elapse session _) hs }

def ofC10 (faults : List BusFault) : Bench :=
  let bytes := Store.empty.setAll [(⟨0, 0, 0xC02⟩, 0x30), (⟨0, 0, 0xC03⟩, 1), (⟨0, 0, 0xC0A⟩, 1),
    (⟨0, 0, 0xC0C⟩, 0x80), (⟨0, 0, 0xC0D⟩, 0x40), (⟨0, 0, 0xC0F⟩, 2)]
  { blank 1 with hardware := (Played.untouched 1 bytes 0 faults).hardware }

theorem ready_ofC10 (bus : MessageBus) {faults : List BusFault}
    (hrefused : ∀ w, .refuse w ∈ faults → w &&& BusWord.errorSet ≠ 0)
    (hprompt : ∀ n, .delay n ∉ faults) :
    (memoryPhy 1 (by decide)).Ready bus (ofC10 faults) where
  sound := Played.settles_untouched 1 _ hrefused
  prompt := by
    refine Played.prompt_untouched 1 _ (List.pairwise_of_forall_mem_list fun f hf _ _ hdelay => ?_)
    obtain ⟨n, rfl⟩ := hdelay
    exact absurd hf (hprompt n)
  clear _ _ := UInt32.zero_and

end Bench

/-! ## Runs -/

/-- In any run of a controller of a C10 or C20 PLL on a PHY whose errors show at once:
whenever the controller is done, every timer that was armed has had its rollback. Each
rollback has programmed the dividers that were captured for its adjustment. If that
succeeded, the PLL ran on them afterwards, and whoever captures before something else is
programmed finds them; if it failed, each divider is still what it was or has been
restored, and the controller is done all the same. -/
theorem rollbacks_revert_unless_failed {h : Host σ} {st : Station σ} (phy : PhyStation h st)
    (bus : MessageBus) (hport : ∀ lane, lane = 0 ∨ lane = 1 → phy.isLane (bus.laneOf lane)) (p : Pll)
    (hp : p.IsBehind bus) (signal : Signal) (ops : List (Operation σ))
    (hops : ∀ f, .outside f ∈ ops → ∀ s, phy.sound s → phy.Same s (f s)) (s : σ)
    (hs : phy.Ready bus s) :
    let dev := Pll.adjustable h
    let left := Operation.record st dev ops (.ofDevice p signal) s
    Operation.leave st dev ops (.ofDevice p signal) s = (left.1, left.2.world) ∧
      (left.1.progress.phase = .done ∨ left.1.progress.done = true →
        left.1.isArmed = false ∧ milestones left.2.events = alternating left.1.progress.generation) ∧
      Throughout (Event.reverts st phy.toMemoryPhy) left.2.events ∧
      ∀ d b, reverted? dev left.2.events = some (d, b) →
        d.live (phy.memory left.2.world) = d.live (phy.memory b) := by
  intro dev left
  have hrun := Operation.leave_eq_record st dev ops (.ofDevice p signal) s
  have htimeline : (if left.1.isArmed then [.rolledBack] else []) ++ milestones left.2.events =
      alternating left.1.progress.generation := (timeline_record h st p signal ops s).1
  have hout (op : Operation σ) (hop : op ∈ ops) (f : σ → σ) (hf : op.scope.outside f) (s : σ)
      (hs : phy.sound s) : phy.Same s (f s) := by
    cases op with
    | outside g =>
      cases hf
      exact hops f hop s hs
    | _ => exact hf.elim
  have hstart : Guarding phy bus (.ofDevice p signal) ⟨s, []⟩ :=
    ⟨hs, hp, nofun, nofun, nofun, nofun, .nil⟩
  have hguarding : Guarding phy bus left.1 left.2 := (Operation.record_keeps st (lasting_true h) ops
    (fun op hop => guarding_step hport (hout op hop)) (.inl rfl) hstart).2
  refine ⟨hrun, fun hover => ?_, hguarding.reverts, fun d b hd => (hguarding.reverted d b hd).2⟩
  have hunarmed := hguarding.unarmed hover
  rw [hunarmed] at htimeline
  exact ⟨hunarmed, htimeline⟩

def Bench.cancelled (faults : List BusFault) : Controller Pll × Recorded Pll Bench :=
  Operation.record (Session.station 0 .byHand) (Pll.adjustable host) [.adjust .ofMillisecond, .cancel]
    (.ofDevice (.c10 (.ofBus ⟨0, ⟨2, 1⟩⟩)) .session) (ofC10 faults)

theorem rollbacks_revert_c10 :
    let left := Bench.cancelled (.replicate 34 .ok ++ [.hang])
    left.1.isArmed = false ∧ milestones left.2.events = [.rolledBack, .armed 1] ∧
      ∃ d b, reverted? (Pll.adjustable Bench.host) left.2.events = some (d, b) ∧
        d.live left.2.world.hardware.memory = d.live b.hardware.memory := by
  obtain ⟨-, hover, -, hlive⟩ := rollbacks_revert_unless_failed
    (Bench.phyStation 1 (by decide) 0 .byHand) ⟨0, ⟨2, 1⟩⟩ (fun lane hlane => ⟨Nat.one_pos, hlane⟩)
    (.c10 (.ofBus ⟨0, ⟨2, 1⟩⟩)) ⟨rfl, by decide, by decide⟩ .session
    [.adjust .ofMillisecond, .cancel] (by simp) (.ofC10 (.replicate 34 .ok ++ [.hang]))
    (Bench.ready_ofC10 _ (by simp) (by simp))
  have hdone : (Bench.cancelled (.replicate 34 .ok ++ [.hang])).1.progress.done = true := by
    decide +kernel
  have hgeneration : (Bench.cancelled (.replicate 34 .ok ++ [.hang])).1.progress.generation = 1 := by
    decide +kernel
  have hreverted : (reverted? (Pll.adjustable Bench.host)
      (Bench.cancelled (.replicate 34 .ok ++ [.hang])).2.events).isSome = true := by
    decide +kernel
  obtain ⟨⟨d, b⟩, hd⟩ := Option.isSome_iff_exists.mp hreverted
  unfold Bench.cancelled at *
  obtain ⟨hunarmed, htimeline⟩ := hover (.inr hdone)
  rw [hgeneration] at htimeline
  exact ⟨hunarmed, htimeline, d, b, hd, hlive d b hd⟩

/-- A PHY that stops answering keeps the dividers of the adjustment. The controller says
that it has rolled back and is done, and a capture takes what is left for what is to be
restored. -/
theorem failed_rollback_reported_done :
    let st := Session.station 0 .byHand
    let dev := Pll.adjustable Bench.host
    let p : Pll := .c10 (.ofBus ⟨0, ⟨2, 1⟩⟩)
    let start := Bench.ofC10 (.replicate 34 .ok ++ [.hang, .hang])
    let armed := Operation.leave st dev [.adjust .ofMillisecond] (.ofDevice p .session) start
    let ended := Controller.cancel st dev armed.1 armed.2
    let next := Pll.capture Bench.host ended.1.2.device ended.2
    armed.1.isArmed = true ∧ armed.1.device.wanted .found = p.live start.hardware.memory ∧
      (ended.1.1 = true ∧ ended.1.2.progress.done = true ∧ ended.1.2.progress.phase = .done) ∧
        p.live ended.2.hardware.memory ≠ p.live start.hardware.memory ∧
          next.1.1 = .ok () ∧ next.1.2.wanted .found ≠ p.live start.hardware.memory := by
  decide +kernel

end Retune
