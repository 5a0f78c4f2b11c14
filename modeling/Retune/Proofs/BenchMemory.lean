import Retune.Proofs.BenchPhy
import Retune.Proofs.PhyMemory

/-!
# Simulated hardware as a PHY with memory

As long as no reset is to stay stuck, the simulated hardware is a PHY with memory,
whatever becomes of its transactions. It is prompt if no transaction is refused after
one that shows late.
-/

namespace Retune

theorem BusCommand.reply_error (c : BusCommand) (swap : Bool) (value : UInt8) :
    c.reply swap value &&& BusWord.errorSet = 0 := by
  cases c with
  | read =>
    cases swap with
    | false => exact BusWord.response_error value .readAck
    | true => exact BusWord.response_error 0 .writeAck
  | writeCommitted =>
    cases swap with
    | false => exact BusWord.response_error 0 .writeAck
    | true => exact BusWord.response_error 0 .readAck
  | writeUncommitted => exact UInt32.zero_and

namespace Hardware

/-! ## Memory -/

def memory (hw : Hardware) : PhyMemory := ⟨hw.byte, hw.word, hw.window⟩

theorem memory_storeByte (hw : Hardware) (b : PhyByte) (value : UInt8) :
    (hw.storeByte b value).memory = hw.memory.store b value := by
  have hget {κ ν : Type} [DecidableEq κ] (s : Store κ ν) (k : κ) (v d : ν) :
      (fun k' => (s.set k v).get k' d) = Function.update (fun k' => s.get k' d) k v := by
    funext k'
    rw [Store.get_set, Function.update_apply]
    exact if_congr eq_comm rfl rfl
  have hword : (hw.storeByte b value).word = (hw.memory.store b value).word := by
    funext w
    by_cases haddr : b.addr = SramPort.writeDataLow
    · simp only [Hardware.word, Hardware.storeByte, PhyMemory.store, if_pos haddr]
      exact congrFun (hget hw.words _ _ 0) w
    · simp only [Hardware.word, Hardware.storeByte, PhyMemory.store, if_neg haddr]
      rfl
  show PhyMemory.mk _ (hw.storeByte b value).word _ = _
  rw [hword]
  exact congrArg₂ (fun byte window => PhyMemory.mk byte _ window) (hget hw.bytes b value 0)
    (hget hw.windows b.port _ .zero)

theorem memory_execute (hw : Hardware) (c : BusCommand) (b : PhyByte) (data : UInt8) (swap : Bool) :
    (hw.execute c b data swap).2.memory = hw.memory.carry c b data := by
  cases c with
  | read => rfl
  | writeCommitted | writeUncommitted => exact memory_storeByte hw b data

/-! ## What stays -/

/-- No reset is to stay stuck, and what still shows after a transaction is that it waits. -/
structure Settles (ports : Nat) (hw : Hardware) : Prop extends Sound ports hw where
  resets : hw.stuckResets = 0
  waits : ∀ l, HasLane ports l → ∀ lag, hw.lags.get? l.control = some lag →
    lag.value &&& BusWord.pending ≠ 0

/-- Where a status shows late there is no error to be seen, and there will be none. -/
structure Prompt (ports : Nat) (hw : Hardware) : Prop where
  late : ∀ l, HasLane ports l → ∀ lag, hw.lags.get? l.status = some lag →
    hw.register l.status &&& BusWord.errorSet = 0 ∧ ∀ w, .refuse w ∉ hw.faults
  order : hw.faults.Pairwise fun f g => (∃ n, f = .delay n) → ∀ w, g ≠ .refuse w

def LagsFrom (hw hw' : Hardware) : Prop := ∀ a lag, hw'.lags.get? a = some lag →
  ∃ lag', hw.lags.get? a = some lag' ∧ lag'.value = lag.value

variable {ports : Nat} {l : BusLane} {hw hw' : Hardware}

theorem LagsFrom.of_eq (hlags : hw'.lags = hw.lags) : LagsFrom hw hw' :=
  fun _ lag hlag => ⟨lag, hlags ▸ hlag, rfl⟩

theorem Settles.onward (hs : Settles ports hw) (hsound : Sound ports hw')
    (hresets : hw'.stuckResets = hw.stuckResets) (hlags : LagsFrom hw hw') : Settles ports hw' where
  toSound := hsound
  resets := hresets.trans hs.resets
  waits l hl lag hlag := by
    obtain ⟨lag', hlag', hvalue⟩ := hlags _ _ hlag
    rw [← hvalue]
    exact hs.waits l hl lag' hlag'

theorem Prompt.onward (hp : Prompt ports hw) (hfaults : hw'.faults.Sublist hw.faults)
    (hlags : LagsFrom hw hw') (hregister : ∀ l, HasLane ports l → ∀ lag,
      hw'.lags.get? l.status = some lag → hw.register l.status &&& BusWord.errorSet = 0 →
        hw'.register l.status &&& BusWord.errorSet = 0) : Prompt ports hw' where
  late l hl lag hlag := by
    obtain ⟨lag', hlag', -⟩ := hlags _ _ hlag
    obtain ⟨hnone, hnever⟩ := hp.late l hl lag' hlag'
    exact ⟨hregister l hl lag hlag hnone, fun w hw => hnever w (hfaults.subset hw)⟩
  order := hp.order.sublist hfaults

theorem read_rest (hs : Sound ports hw) (addr : UInt32) :
    let hw' := (hw.read addr).2
    hw'.faults = hw.faults ∧ hw'.stuckResets = hw.stuckResets ∧ hw'.memory = hw.memory ∧
      LagsFrom hw hw' := by
  unfold Hardware.read
  rw [hs.queued addr]
  dsimp only
  rcases hlag : hw.lags.get? addr with _ | ⟨_ | left, value⟩
  · exact ⟨rfl, rfl, rfl, .of_eq rfl⟩
  · exact ⟨rfl, rfl, rfl, .of_eq rfl⟩
  · refine ⟨rfl, rfl, rfl, fun a lag hget => ?_⟩
    rw [Store.get?_set] at hget
    split at hget
    · next heq =>
      cases hget
      rw [← heq]
      exact ⟨_, hlag, rfl⟩
    · exact ⟨lag, hget, rfl⟩

/-! ## Writes to a lane -/

theorem write_reset_done (hports : ports ≤ 256) (hl : HasLane ports l) (hs : Settles ports hw) :
    (hw.write l.control BusWord.reset).2 =
      { hw with lags := (hw.lags.erase l.control).erase l.status }.setRegister l.control 0 := by
  have hbit : (BusWord.reset &&& BusWord.reset != 0) = true := by decide
  have hdecoded : BusRegister.ofAddr? hw.ports l.control = some ⟨l.port, l.lane, false⟩ := by
    rw [hs.size]
    exact ofAddr?_control hports hl
  unfold Hardware.write
  rw [hdecoded]
  simp only [Bool.false_eq_true, if_false, Hardware.writeControl, hbit, if_true, Hardware.resetLane,
    hs.resets]
  rfl

theorem lagsFrom_erase (hw : Hardware) (a b : UInt32) :
    LagsFrom hw { hw with lags := (hw.lags.erase a).erase b } := by
  intro k lag hlag
  rw [Store.get?_erase, Store.get?_erase] at hlag
  split at hlag
  · cases hlag
  · split at hlag
    · cases hlag
    · exact ⟨lag, hlag, rfl⟩

/-- What a request leaves behind. -/
structure Answered (ports : Nat) (l : BusLane) (c : BusCommand) (b : PhyByte) (value : UInt8)
    (hw hw' : Hardware) : Prop where
  settles : Settles ports hw'
  prompt : Prompt ports hw → Prompt ports hw'
  handled : Handled c b value (hw.register l.status) hw.memory (hw'.register l.status) hw'.memory
    (hw'.register l.control &&& BusWord.pending != 0)

theorem finish_rest (hw : Hardware) (l : BusLane) (c : BusCommand) (b : PhyByte) (data : UInt8)
    (swap : Bool) (taken : UInt32) :
    let hw' := hw.finish l c b data swap taken
    hw'.faults = hw.faults ∧ hw'.stuckResets = hw.stuckResets ∧ hw'.lags = hw.lags ∧
      hw'.memory = hw.memory.carry c b data := by
  obtain ⟨-, -, -, hlags, hfaults⟩ := hw.execute_rest c b data swap
  have hresets : (hw.execute c b data swap).2.stuckResets = hw.stuckResets := by cases c <;> rfl
  exact ⟨hfaults, hresets, hlags, memory_execute hw c b data swap⟩

theorem answered_finish (hports : ports ≤ 256) (hl : HasLane ports l) (hs : Settles ports hw)
    (c : BusCommand) (b : PhyByte) (data : UInt8) (swap : Bool) (word : UInt32) :
    Answered ports l c b data hw (hw.finish l c b data swap (word &&& ~~~BusWord.pending)) := by
  obtain ⟨hfaults, hresets, hlags, hmemory⟩ :=
    finish_rest hw l c b data swap (word &&& ~~~BusWord.pending)
  have hne := control_ne_status hports hl hl
  refine ⟨hs.onward (hs.toSound.finish c b data swap _) hresets (.of_eq hlags), fun hp => ?_, ?_⟩
  · refine hp.onward (hfaults ▸ List.Sublist.refl _) (.of_eq hlags) fun l' hl' _ _ hnone => ?_
    rw [register_finish, if_neg (control_ne_status hports hl hl')]
    split
    · exact c.reply_error _ _
    · exact hnone
  · have hidle : (word &&& ~~~BusWord.pending &&& BusWord.pending != 0) = false := by
      rw [and_not_and]
      rfl
    rw [register_finish, register_finish, if_neg hne, if_pos rfl, if_pos rfl, hmemory, hidle]
    cases c <;> exact .executed swap

theorem prompt_delay (hports : ports ≤ 256) (hl : HasLane ports l) (hp : Prompt ports hw)
    (hnone : hw.register l.status &&& BusWord.errorSet = 0) (hnever : ∀ w, .refuse w ∉ hw.faults)
    (n : Nat) (word : UInt32) : Prompt ports { hw with
      lags := (hw.lags.set l.control ⟨n, word⟩).set l.status ⟨n, 0⟩ } where
  late l' hl' lag hlag := by
    refine ⟨?_, hnever⟩
    by_cases hsame : l.status = l'.status
    · show hw.register l'.status &&& BusWord.errorSet = 0
      rw [← hsame]
      exact hnone
    · rw [Store.get?_set, if_neg hsame, Store.get?_set,
        if_neg (control_ne_status hports hl hl')] at hlag
      exact (hp.late l' hl' lag hlag).1
  order := hp.order

theorem settles_delay (hports : ports ≤ 256) (hl : HasLane ports l) (hs : Settles ports hw)
    (n : Nat) (c : BusCommand) (addr : UInt16) (value : UInt8) : Settles ports { hw with
      lags := (hw.lags.set l.control ⟨n, BusWord.request c addr value⟩).set l.status ⟨n, 0⟩ } where
  toSound := hs.toSound.delay hports hl n c addr value
  resets := hs.resets
  waits l' hl' lag hlag := by
    rw [Store.get?_set, if_neg (control_ne_status hports hl' hl).symm, Store.get?_set] at hlag
    split at hlag
    · cases hlag
      exact BusWord.request_pending c addr value
    · exact hs.waits l' hl' lag hlag

theorem Prompt.none_after_delay {n : Nat} {fs : List BusFault} (hp : Prompt ports hw)
    (hfaults : hw.faults = .delay n :: fs) (w : UInt32) : .refuse w ∉ fs := by
  intro hw'
  have horder := hp.order
  rw [hfaults] at horder
  exact (List.pairwise_cons.mp horder).1 _ hw' ⟨n, rfl⟩ w rfl

theorem handled_hang (hports : ports ≤ 256) (hl : HasLane ports l) (hw : Hardware) (c : BusCommand)
    (b : PhyByte) (value : UInt8) {word : UInt32} (hpending : word &&& BusWord.pending ≠ 0) :
    let hw' := hw.setRegister l.control word
    Handled c b value (hw.register l.status) hw.memory (hw'.register l.status) hw'.memory
      (hw'.register l.control &&& BusWord.pending != 0) := by
  intro hw'
  have hcontrol : hw'.register l.control = word := by rw [register_set, if_pos rfl]
  have hstatus : hw'.register l.status = hw.register l.status := by
    rw [register_set, if_neg (control_ne_status hports hl hl)]
  rw [hcontrol, hstatus, bne_iff_ne.mpr hpending]
  exact .left

theorem handled_refuse (hports : ports ≤ 256) (hl : HasLane ports l) (hw : Hardware)
    (c : BusCommand) (b : PhyByte) (value : UInt8) (word : UInt32) {w : UInt32}
    (herror : w &&& BusWord.errorSet ≠ 0) :
    let hw' := (hw.setRegister l.status w).setRegister l.control (word &&& ~~~BusWord.pending)
    Handled c b value (hw.register l.status) hw.memory (hw'.register l.status) hw'.memory
      (hw'.register l.control &&& BusWord.pending != 0) := by
  intro hw'
  have hcontrol : hw'.register l.control = word &&& ~~~BusWord.pending := by
    rw [register_set, if_pos rfl]
  have hstatus : hw'.register l.status = w := by
    rw [register_set, if_neg (control_ne_status hports hl hl), register_set, if_pos rfl]
  have hidle : (word &&& ~~~BusWord.pending &&& BusWord.pending != 0) = false := by
    rw [and_not_and]
    rfl
  rw [hcontrol, hstatus, hidle]
  exact .refused herror

theorem answered_request (hports : ports ≤ 256) (hl : HasLane ports l) (hs : Settles ports hw)
    (c : BusCommand) (addr : UInt16) (value : UInt8) :
    Answered ports l c ⟨l.port, l.lane, addr &&& 0xFFF⟩ value hw
      (hw.write l.control (BusWord.request c addr value)).2 := by
  have hne : l.control ≠ l.status := control_ne_status hports hl hl
  let word := BusWord.request c addr value
  let hw₁ : Hardware := { hw with faults := hw.faults.tail }
  have hs₁ : Settles ports hw₁ := by
    refine hs.onward (hs.toSound.of_eq rfl rfl (fun f hf => List.mem_of_mem_tail hf) ?_) rfl
      (.of_eq rfl)
    exact fun a lag hlag => ⟨lag, hlag, rfl⟩
  have hp₁ (hp : Prompt ports hw) : Prompt ports hw₁ :=
    hp.onward (List.tail_sublist _) (.of_eq rfl) fun _ _ _ _ => id
  have hhead : ∀ f ≠ BusFault.ok, hw.faults.headD .ok = f → ∃ fs, hw.faults = f :: fs := by
    intro f hf hhead
    rcases hfaults : hw.faults with _ | ⟨f', fs⟩ <;> rw [hfaults] at hhead
    · exact absurd hhead.symm hf
    · exact ⟨fs, by rw [← hhead]; rfl⟩
  have hfinish (swap : Bool) := answered_finish hports hl hs₁ c
    ⟨l.port, l.lane, (BusWord.address.get word).toUInt16⟩ (BusWord.byte word) swap word
  rw [write_request hports hl hs.toSound, ← BusWord.address_request c addr value]
  generalize hfault : hw.faults.headD .ok = fault
  suffices hdone : Answered ports l c ⟨l.port, l.lane, (BusWord.address.get word).toUInt16⟩
      (BusWord.byte word) hw (hw₁.transact ⟨l.port, l.lane, false⟩ word c fault) by
    rw [BusWord.byte_request] at hdone
    exact hdone
  cases fault with
  | ok => exact ⟨(hfinish false).settles, fun hp => (hfinish false).prompt (hp₁ hp),
      (hfinish false).handled⟩
  | swap => exact ⟨(hfinish true).settles, fun hp => (hfinish true).prompt (hp₁ hp),
      (hfinish true).handled⟩
  | hang =>
    refine ⟨hs₁.onward (hs₁.toSound.setRegister _ _) rfl (.of_eq rfl), fun hp => ?_,
      handled_hang hports hl hw₁ c _ _ (BusWord.request_pending c addr value)⟩
    refine (hp₁ hp).onward (.refl _) (.of_eq rfl) fun l' hl' _ _ hnone => ?_
    show (hw₁.setRegister l.control word).register l'.status &&& BusWord.errorSet = 0
    rw [register_set, if_neg (control_ne_status hports hl hl')]
    exact hnone
  | refuse w =>
    obtain ⟨fs, hfaults⟩ := hhead (.refuse w) nofun hfault
    have hmem : .refuse w ∈ hw.faults := hfaults ▸ List.mem_cons_self
    refine ⟨hs₁.onward ((hs₁.toSound.setRegister _ _).setRegister _ _) rfl (.of_eq rfl),
      fun hp => ?_, handled_refuse hports hl hw₁ c _ _ word (hs.faults w hmem)⟩
    -- a refusal to come means that nothing shows late yet
    exact ⟨fun l' hl' lag hlag => absurd hmem ((hp.late l' hl' lag hlag).2 w), (hp₁ hp).order⟩
  | delay n =>
    obtain ⟨fs, hfaults⟩ := hhead (.delay n) nofun hfault
    refine ⟨settles_delay hports hl (hfinish false).settles n c addr value, fun hp => ?_,
      (hfinish false).handled⟩
    refine prompt_delay hports hl ((hfinish false).prompt (hp₁ hp)) ?_ ?_ n word
    · rw [register_finish, if_neg hne, if_pos rfl]
      exact c.reply_error _ _
    · rw [(finish_rest hw₁ l c _ _ false _).1, show hw₁.faults = fs from congrArg List.tail hfaults]
      exact hp.none_after_delay hfaults

end Hardware

/-! ## Simulated hardware as a PHY with memory -/

namespace Hardware

def laneState (hw : Hardware) (l : BusLane) : LaneState :=
  ⟨hw.register l.status, hw.register l.control &&& BusWord.reset != 0,
    hw.register l.control &&& BusWord.pending != 0⟩

theorem laneState_of_register {ports : Nat} {l l' : BusLane} {hw hw' : Hardware}
    (hports : ports ≤ 256) (hl : HasLane ports l)
    (hregister : ∀ a, l.control ≠ a → l.status ≠ a → hw'.register a = hw.register a)
    (hl' : HasLane ports l') (hne : l' ≠ l) : hw'.laneState l' = hw.laneState l' := by
  unfold laneState
  rw [hregister l'.status (control_ne_status hports hl hl') (status_ne_status hports hl hl' hne),
    hregister l'.control (control_ne_control hports hl hl' hne)
      (control_ne_status hports hl' hl).symm]

end Hardware

namespace Played
variable {ports : Nat} {l : BusLane} {p : Played}

def memoryView (ports : Nat) : MemoryView Played where
  isLane := Hardware.HasLane ports
  sound p := p.hardware.Settles ports
  prompt p := p.hardware.Prompt ports
  lane p l := p.hardware.laneState l
  memory p := p.hardware.memory

theorem memory_load (hs : p.hardware.Settles ports) (addr : UInt32) :
    (memoryView ports).Same p (host.load addr p).2 := by
  obtain ⟨hsound, hregisters, -⟩ := hs.toSound.read addr
  obtain ⟨hfaults, hresets, hmemory, hlags⟩ := Hardware.read_rest hs.toSound addr
  have hregister : (host.load addr p).2.hardware.register = p.hardware.register := by
    funext a
    exact congrArg (fun registers => Store.get registers a 0) hregisters
  refine ⟨hs.onward hsound hresets hlags, fun hp => hp.onward ?_ hlags ?_, ?_, hmemory⟩
  · show (p.hardware.read addr).2.faults.Sublist p.hardware.faults
    rw [hfaults]
  · intro l _ _ _ hnone
    rw [hregister]
    exact hnone
  · funext l
    show Hardware.laneState _ l = p.hardware.laneState l
    unfold Hardware.laneState
    rw [hregister]

theorem memory_reset (hports : ports ≤ 256) (hl : Hardware.HasLane ports l)
    (hs : p.hardware.Settles ports) :
    let p' := (host.store l.control BusWord.reset p).2
    (memoryView ports).SameBut l p p' ∧
      p'.hardware.laneState l = ⟨p.hardware.register l.status, false, false⟩ ∧
        p'.hardware.memory = p.hardware.memory := by
  intro p'
  let hw : Hardware := { p.hardware with
    lags := (p.hardware.lags.erase l.control).erase l.status }
  have hp' : p'.hardware = hw.setRegister l.control 0 := Hardware.write_reset_done hports hl hs
  have hlags := Hardware.lagsFrom_erase p.hardware l.control l.status
  have hregister (a : UInt32) : p'.hardware.register a =
      if l.control = a then 0 else p.hardware.register a := by
    rw [hp']
    exact Hardware.register_set hw l.control 0 a
  have hsound : p'.hardware.Sound ports := by
    obtain ⟨_, -, hsound, -⟩ := Hardware.write_reset hports hl hs.toSound
    exact hsound
  refine ⟨⟨?_, fun hp => ?_, fun l' hl' hne => ?_⟩, ?_, ?_⟩
  · refine hs.onward hsound ?_ ?_ <;> rw [hp']
    · rfl
    · exact hlags
  · refine Hardware.Prompt.onward hp ?_ ?_ fun l' hl' _ _ hnone => ?_
    · rw [hp']
      exact .refl _
    · rw [hp']
      exact hlags
    · rw [hregister, if_neg (Hardware.control_ne_status hports hl hl')]
      exact hnone
  · exact Hardware.laneState_of_register hports hl
      (fun a hcontrol _ => (hregister a).trans (if_neg hcontrol)) hl' hne
  · unfold Hardware.laneState
    rw [hregister, hregister, if_neg (Hardware.control_ne_status hports hl hl), if_pos rfl]
    rfl
  · rw [hp']
    rfl

theorem memory_status (hports : ports ≤ 256) (hl : Hardware.HasLane ports l)
    (hs : p.hardware.Settles ports) (w : UInt32) :
    let p' := (host.store l.status w p).2
    (memoryView ports).SameBut l p p' ∧
      p'.hardware.register l.status = p.hardware.register l.status &&& ~~~w ∧
        p'.hardware.memory = p.hardware.memory := by
  intro p'
  have hp' : p'.hardware = p.hardware.setRegister l.status (p.hardware.register l.status &&& ~~~w) :=
    congrArg Prod.snd (Hardware.write_status hports hl hs.toSound w)
  have hregister (a : UInt32) : p'.hardware.register a =
      if l.status = a then p.hardware.register l.status &&& ~~~w else p.hardware.register a := by
    rw [hp']
    exact Hardware.register_set _ _ _ a
  refine ⟨⟨?_, fun hp => ?_, fun l' hl' hne => ?_⟩, ?_, ?_⟩
  · show p'.hardware.Settles ports
    rw [hp']
    exact hs.onward (hs.toSound.setRegister _ _) rfl (.of_eq rfl)
  · have hfaults : p'.hardware.faults = p.hardware.faults := by
      rw [hp']
      rfl
    have hlags : p'.hardware.lags = p.hardware.lags := by
      rw [hp']
      rfl
    refine Hardware.Prompt.onward hp (hfaults ▸ .refl _) (.of_eq hlags) fun l' hl' _ _ hnone => ?_
    rw [hregister]
    split
    · next hsame =>
      rw [hsame, UInt32.and_assoc, UInt32.and_comm (~~~w), ← UInt32.and_assoc, hnone,
        UInt32.zero_and]
    · exact hnone
  · exact Hardware.laneState_of_register hports hl
      (fun a _ hstatus => (hregister a).trans (if_neg hstatus)) hl' hne
  · exact (hregister l.status).trans (if_pos rfl)
  · rw [hp']
    rfl

def memoryPhy (ports : Nat) (hports : ports ≤ 256) : MemoryPhy host where
  toMemoryView := memoryView ports
  report _ hs := ⟨hs, id, rfl, rfl⟩
  load addr hs := memory_load hs addr
  loadStatus {p l} hs hl hready := by
    rcases (Hardware.Sound.read hs.toSound l.status).2.2 with hstored | ⟨lag, hlag, hvalue⟩
    · exact hstored
    · have hclear := hs.statusLags l hl lag hlag
      rw [← hvalue] at hclear
      exact absurd hclear hready
  loadError {p l} hs hl hp herror := by
    rcases (Hardware.Sound.read hs.toSound l.status).2.2 with hstored | ⟨lag, hlag, -⟩
    · show (p.hardware.read l.status).1 &&& BusWord.errorSet ≠ 0
      rw [hstored]
      exact herror
    · exact absurd (Hardware.Prompt.late hp l hl lag hlag).1 herror
  loadReset {p l} hs hl hreset := by
    rcases (Hardware.Sound.read hs.toSound l.control).2.2 with hstored | ⟨lag, hlag, hvalue⟩
    · have hshown : p.hardware.register l.control &&& BusWord.reset ≠ 0 := hstored ▸ hreset
      exact bne_iff_ne.mpr hshown
    · have hclear := hs.controlLags l hl lag hlag
      rw [← hvalue] at hclear
      exact absurd hclear hreset
  loadPending {p l} hs hl hwaiting := by
    show (p.hardware.read l.control).1 &&& BusWord.pending ≠ 0
    rcases (Hardware.Sound.read hs.toSound l.control).2.2 with hstored | ⟨lag, hlag, hvalue⟩
    · rw [hstored]
      exact bne_iff_ne.mp hwaiting
    · rw [hvalue]
      exact hs.waits l hl lag hlag
  storeReset hs hl := memory_reset hports hl hs
  storeStatus w hs hl := memory_status hports hl hs w
  storeRequest {p l} c addr value hs hl := by
    have hanswered := Hardware.answered_request hports hl hs c addr value
    have hothers := (Hardware.concluded_request hports hl hs.toSound c addr value []).others
    exact ⟨⟨hanswered.settles, hanswered.prompt,
      fun l' => Hardware.laneState_of_register hports hl hothers⟩, hanswered.handled⟩

theorem settles_untouched (ports : Nat) (bytes : Store PhyByte UInt8) {faults : List BusFault}
    (hfaults : ∀ w, .refuse w ∈ faults → w &&& BusWord.errorSet ≠ 0) :
    (untouched ports bytes 0 faults).hardware.Settles ports where
  toSound := sound_untouched ports bytes 0 hfaults
  resets := rfl
  waits _ _ _ hlag := nomatch hlag

theorem prompt_untouched (ports : Nat) (bytes : Store PhyByte UInt8) {faults : List BusFault}
    (hfaults : faults.Pairwise fun f g => (∃ n, f = .delay n) → ∀ w, g ≠ .refuse w) :
    (untouched ports bytes 0 faults).hardware.Prompt ports where
  late _ _ _ hlag := nomatch hlag
  order := hfaults

/-- A response of an earlier transaction that has not been taken. -/
def withResponse (p : Played) (l : BusLane) (value : UInt8) : Played :=
  { p with hardware := p.hardware.setRegister l.status (BusWord.response .readAck value) }

theorem settles_withResponse (hs : p.hardware.Settles ports) (value : UInt8) :
    (p.withResponse l value).hardware.Settles ports :=
  hs.onward (hs.toSound.setRegister _ _) rfl (.of_eq rfl)

end Played

end Retune
