import Retune.Pll.Open
import Retune.Proofs.Addresses
import Retune.Proofs.Guards
import Retune.Proofs.Registers

/-!
# Open PLLs

A PLL is open from when its key was granted until it is dropped. Keys are families
and indices, but what must not be shared are registers: two open PLLs have none in
common, except that a C10 and a C20 PLL may be open on one port.
-/

namespace Retune

variable {σ : Type}

/-! ## Registers of PLLs -/

def MessageBus.registers (bus : MessageBus) : List UInt32 :=
  [0, 1].flatMap fun lane => [controlRegister bus.port lane, statusRegister bus.port lane]

def MessageBus.Fits (bus : MessageBus) : Prop := busStart bus.port.toNat + 12 < 2 ^ 32

theorem MessageBus.mem_registers {bus : MessageBus} (hfits : bus.Fits) {a : UInt32}
    (ha : a ∈ bus.registers) :
    busStart bus.port.toNat ≤ a.toNat ∧ a.toNat ≤ busStart bus.port.toNat + 12 := by
  obtain ⟨lane, hlane, ha⟩ := List.mem_flatMap.mp ha
  have hle : lane.toNat ≤ 1 := by
    rcases List.mem_pair.mp hlane with rfl | rfl <;> decide
  rcases List.mem_pair.mp ha with rfl | rfl
  · have hcontrol := controlRegister_toNat hle hfits
    omega
  · have hstatus := statusRegister_toNat hle hfits
    omega

namespace Pll

def registers : Pll → List UInt32
  | c10 p => p.bus.registers
  | c20 p => p.bus.registers
  | p => p.addrs

def Fits : Pll → Prop
  | c10 p => p.bus.Fits
  | c20 p => p.bus.Fits
  | _ => True

def SharePort : Pll → Pll → Prop
  | c10 p, c20 q => p.bus.port = q.bus.port
  | c20 p, c10 q => p.bus.port = q.bus.port
  | _, _ => False

def site : Pll → Site
  | combo _ => .combo
  | dkl p => .dkl p.index
  | c10 p => .bus p.bus.port
  | c20 p => .bus p.bus.port
  | dpMn p => .link p.pipe

inductive Opened : Pll → Prop where
  | combo {platform : Platform} {index : UInt8} {regs : DpllPair}
      (hregs : platform.dplls[index.toNat]? = some regs) : Opened (.combo (.ofRegisters index regs))
  | dkl (index : UInt8) : Opened (.dkl (.ofIndex index))
  | c10 (port : UInt32) : Opened (.c10 (.ofBus (.ofPort port)))
  | c20 (port : UInt32) : Opened (.c20 (.ofBus (.ofPort port)))
  | dpMn {pipe : UInt8} (hpipe : pipe.toNat < 4) : Opened (.dpMn (.ofPipe pipe))

variable {p q : Pll}

theorem Opened.site_exists (hp : p.Opened) : p.site.Exists := by
  cases hp with
  | dpMn hpipe => exact hpipe
  | combo | dkl | c10 | c20 => trivial

theorem Opened.within (hp : p.Opened) (hfits : p.Fits) {a : UInt32} (ha : a ∈ p.registers) :
    p.site.first ≤ a.toNat ∧ a.toNat ≤ p.site.last := by
  cases hp with
  | combo hregs => exact dplls_mem (List.mem_of_getElem? hregs) ha
  | dkl index =>
    have haddrs : (Pll.dkl (.ofIndex index)).registers =
        DklRegister.writeOrder.map (DklPll.registerAddr index) := rfl
    rw [haddrs] at ha
    obtain ⟨r, -, rfl⟩ := List.mem_map.mp ha
    have hoffset : 0x200 ≤ r.offset.toNat ∧ r.offset.toNat ≤ 0x224 := by cases r <;> decide
    simp only [site, DklPll.ofIndex, Site.first, Site.last, DklPll.registerAddr_toNat]
    omega
  | c10 port | c20 port => exact MessageBus.mem_registers hfits ha
  | @dpMn pipe hpipe =>
    have hm := LinkRatio.mRegister_toNat pipe
    have hn : (LinkRatio.mRegister pipe + 4).toNat = 0x60044 + 0x1000 * pipe.toNat := by
      rw [UInt32.toNat_add, hm]
      simp only [UInt32.reduceToNat]
      omega
    have haddrs : (Pll.dpMn (.ofPipe pipe)).registers =
        [LinkRatio.mRegister pipe, LinkRatio.mRegister pipe + 4] := rfl
    rw [haddrs] at ha
    simp only [site, LinkRatio.ofPipe, Site.first, Site.last]
    rcases List.mem_pair.mp ha with rfl | rfl <;> omega

theorem not_disjoint_of_sharePort (h : SharePort p q) : ¬ p.registers.Disjoint q.registers := by
  have hshared (bus bus' : MessageBus) (hport : bus.port = bus'.port) :
      ¬ bus.registers.Disjoint bus'.registers := by
    intro hdisjoint
    refine hdisjoint (a := controlRegister bus.port 0) List.mem_cons_self ?_
    rw [hport]
    exact List.mem_cons_self
  cases p with
  | c10 p =>
    cases q with
    | c20 q => exact hshared p.bus q.bus h
    | combo | dkl | c10 | dpMn => exact h.elim
  | c20 p =>
    cases q with
    | c10 q => exact hshared p.bus q.bus h
    | combo | dkl | c20 | dpMn => exact h.elim
  | combo | dkl | dpMn => exact h.elim

/-- PLLs with different keys are at different sites, unless both are DPLLs or they
share a port. -/
theorem site_ne (hp : p.Opened) (hq : q.Opened) (hkey : p.key ≠ q.key) (hport : ¬ SharePort p q)
    (hcombo : ¬ (p.family = .combo ∧ q.family = .combo)) : p.site ≠ q.site := by
  intro hsite
  cases hp <;> cases hq <;> cases hsite
  case combo.combo => exact hcombo ⟨rfl, rfl⟩
  case c10.c20 | c20.c10 => exact hport rfl
  all_goals exact hkey rfl

theorem Opened.disjoint_iff (hp : p.Opened) (hq : q.Opened) (hkey : p.key ≠ q.key) (hfp : p.Fits)
    (hfq : q.Fits) : p.registers.Disjoint q.registers ↔ ¬ SharePort p q := by
  refine ⟨fun hdisjoint hport => not_disjoint_of_sharePort hport hdisjoint, fun hport => ?_⟩
  by_cases hcombo : p.family = .combo ∧ q.family = .combo
  · obtain ⟨hpc, hqc⟩ := hcombo
    cases hp with
    | @combo x i regs hregs =>
      cases hq with
      | @combo y j regs' hregs' =>
        refine dplls_disjoint hregs hregs' fun hij => hkey ?_
        rw [UInt8.toNat_inj.mp hij]
        rfl
      | dkl | c10 | c20 | dpMn => cases hqc
    | dkl | c10 | c20 | dpMn => cases hpc
  · intro a hap haq
    have hpa := hp.within hfp hap
    have hqa := hq.within hfq haq
    have hapart := Site.apart hp.site_exists hq.site_exists (site_ne hp hq hkey hport hcombo)
    omega

end Pll

/-! ## Opening -/

variable {h : Host σ} {r : Registry} {live : List Guard}

def opening (r : Registry) (live : List Guard) : Except Failure OpenPll → Registry → σ → Prop :=
  ending (fun p r' _ => p.pll.Opened ∧ p.guard.key = p.pll.key ∧ r'.HeldBy (p.guard :: live))
    fun _ r' _ => r' = r

section
variable (hr : r.HeldBy live) (s : σ)
include hr

theorem opens_owned {p : Pll} (hp : p.Opened) :
    Reaches (fun _ _ => True) (Pll.owned h p).run r s (opening r live) := by
  refine reaches_andThen ⟨anywhere, ?_⟩
  rcases hr.claim p.key with ⟨g, r', hclaim, hkey, hheld, -⟩ | ⟨e, hclaim⟩
  · rw [claimPll_granted _ hclaim]
    exact reaches_ok ⟨hp, hkey, hheld⟩
  · rw [claimPll_refused _ hclaim]
    exact rfl

theorem opens_link (pipe : UInt8) :
    Reaches (fun _ _ => True) (Pll.openLink h pipe).run r s (opening r live) := by
  unfold Pll.openLink
  split
  · exact reaches_andThen (reaches_call anywhere (reaches_andThen (reaches_throw rfl)))
  · next hpipe =>
    have hlt : pipe.toNat < 4 := Nat.lt_of_not_le hpipe
    exact opens_owned hr s (.dpMn hlt)

theorem opens_index (o : Output) (platform : Platform) (index : UInt8) :
    Reaches (fun _ _ => True) (Pll.openIndex h o platform index).run r s (opening r live) := by
  unfold Pll.openIndex
  cases o.family with
  | combo =>
    dsimp only
    cases hregs : platform.dplls[index.toNat]? with
    | none => exact reaches_throw rfl
    | some regs => exact opens_owned hr s (.combo hregs)
  | dkl => exact opens_owned hr s (.dkl index)
  | c10 => exact opens_owned hr s (.c10 o.port)
  | c20 => exact opens_owned hr s (.c20 o.port)
  | dpMn => exact opens_link hr s index

theorem opens_output (o : Output) (platform : Platform) :
    Reaches (fun _ _ => True) (Pll.openFor h o platform).run r s (opening r live) := by
  refine reaches_andThen (reaches_call anywhere ?_)
  cases (Probe.pllIndex? h o s).1 with
  | none => exact reaches_andThen (reaches_call anywhere (reaches_throw rfl))
  | some index => exact reaches_andThen (reaches_call anywhere (opens_index hr _ o platform index))

end

/-! ## Runs -/

/-- A registry with the PLLs that are open. -/
structure OpenPlls where
  registry : Registry
  live : List OpenPll

/-- A PLL is dropped by its place among those that are open. -/
inductive OpeningOperation where
  | openFor (o : Output) (platform : Platform)
  | openLink (pipe : UInt8)
  | drop (place : Nat)

namespace OpenPlls

def fresh : OpenPlls := ⟨.empty, []⟩

def plls (t : OpenPlls) : List Pll := t.live.map OpenPll.pll

def enter (t : OpenPlls) : Except Failure OpenPll × Registry → OpenPlls
  | (.ok p, registry) => ⟨registry, p :: t.live⟩
  | (.error _, registry) => { t with registry }

def perform (h : Host σ) (t : OpenPlls) (s : σ) : OpeningOperation → OpenPlls × σ
  | .openFor o platform =>
    let (ended, s) := (Pll.openFor h o platform).run t.registry s
    (t.enter ended, s)
  | .openLink pipe =>
    let (ended, s) := (Pll.openLink h pipe).run t.registry s
    (t.enter ended, s)
  | .drop place =>
    match t.live[place]? with
    | some p =>
      let ((_, registry), s) := releasePll h.toEnvironment p.guard t.registry s
      (⟨registry, t.live.eraseIdx place⟩, s)
    | none => (t, s)

def run (h : Host σ) : List OpeningOperation → OpenPlls × σ → OpenPlls × σ
  | [], r => r
  | op :: ops, (t, s) => run h ops (t.perform h s op)

structure Sound (t : OpenPlls) : Prop where
  held : t.registry.HeldBy (t.live.map OpenPll.guard)
  opened : ∀ p ∈ t.live, p.pll.Opened ∧ p.guard.key = p.pll.key

theorem sound_fresh : fresh.Sound := ⟨Registry.heldBy_empty, fun _ hp => nomatch hp⟩

variable {t : OpenPlls} {s : σ}

theorem Sound.keys (ht : t.Sound) :
    (t.live.map OpenPll.guard).map Guard.key = t.plls.map Pll.key := by
  unfold plls
  rw [List.map_map, List.map_map]
  exact List.map_congr_left fun p hp => (ht.opened p hp).2

theorem Sound.enter (ht : t.Sound) (x : Holding Registry σ OpenPll)
    (hx : Reaches (fun _ _ => True) x.run t.registry s
      (opening t.registry (t.live.map OpenPll.guard))) :
    (t.enter (x.run t.registry s).1).Sound := by
  have hended := hx.post
  rcases hrun : (x.run t.registry s).1 with ⟨e | p, registry⟩ <;> rw [hrun] at hended
  · have hsame : registry = t.registry := hended
    rw [hsame]
    exact ht
  · obtain ⟨hp, hkey, hheld⟩ := hended
    exact ⟨hheld, List.forall_mem_cons.mpr ⟨⟨hp, hkey⟩, ht.opened⟩⟩

theorem Sound.perform (ht : t.Sound) (op : OpeningOperation) : (t.perform h s op).1.Sound := by
  cases op with
  | openFor o platform => exact ht.enter (Pll.openFor h o platform) (opens_output ht.held s o platform)
  | openLink pipe => exact ht.enter (Pll.openLink h pipe) (opens_link ht.held s pipe)
  | drop place =>
    unfold OpenPlls.perform
    dsimp only
    split
    · next p hplace =>
      have hguard : (t.live.map OpenPll.guard)[place]? = some p.guard := by
        rw [List.getElem?_map, hplace]
        rfl
      have hheld := ht.held.release hguard
      rw [List.eraseIdx_map] at hheld
      exact ⟨hheld, fun q hq => ht.opened q (List.mem_of_mem_eraseIdx hq)⟩
    · exact ht

theorem sound_run : ∀ (ops : List OpeningOperation) {t : OpenPlls} {s : σ}, t.Sound →
    (run h ops (t, s)).1.Sound
  | [], _, _, ht => ht
  | op :: ops, _, _, ht => sound_run ops (ht.perform op)

theorem Sound.single (ht : t.Sound) : (t.plls.map Pll.key).Nodup := by
  rw [← ht.keys]
  exact ht.held.single

theorem Sound.pairwise (ht : t.Sound) : t.plls.Pairwise fun p q => p.Fits → q.Fits →
    (p.registers.Disjoint q.registers ↔ ¬ Pll.SharePort p q) := by
  have hopened : ∀ p ∈ t.plls, p.Opened := by
    intro p hp
    obtain ⟨op, hop, rfl⟩ := List.mem_map.mp hp
    exact (ht.opened op hop).1
  have hkeys : t.plls.Pairwise fun p q => p.key ≠ q.key := List.pairwise_map.mp ht.single
  refine hkeys.imp_of_mem fun hp hq hkey hfp hfq => ?_
  exact (hopened _ hp).disjoint_iff (hopened _ hq) hkey hfp hfq

end OpenPlls

/-- Whatever is opened and dropped, and whatever the registers say meanwhile: an open
PLL has a guard of its key, the keys owned are those of the open PLLs, each by one, and
what fails to open claims nothing. Two open PLLs have no register in common, if the
addresses are of 32 bits and they are not a C10 and a C20 PLL on one port; those two
do. -/
theorem open_plls_apart (h : Host σ) (ops : List OpeningOperation) (start : σ) :
    let t := (OpenPlls.run h ops (.fresh, start)).1
    (∀ p ∈ t.live, p.guard.key = p.pll.key) ∧
      (∀ key, t.registry.isOwned key = true ↔ ∃ p ∈ t.plls, p.key = key) ∧
      (t.plls.map Pll.key).Nodup ∧
      (∀ o platform s e, ((Pll.openFor h o platform).run t.registry s).1.1 = .error e →
        ((Pll.openFor h o platform).run t.registry s).1.2 = t.registry) ∧
      (∀ pipe s e, ((Pll.openLink h pipe).run t.registry s).1.1 = .error e →
        ((Pll.openLink h pipe).run t.registry s).1.2 = t.registry) ∧
      t.plls.Pairwise fun p q => p.Fits → q.Fits →
        (p.registers.Disjoint q.registers ↔ ¬ Pll.SharePort p q) := by
  intro t
  have ht : t.Sound := OpenPlls.sound_run ops OpenPlls.sound_fresh
  have hfails {x : Holding Registry σ OpenPll} {s : σ} {e : Failure}
      (hx : Reaches (fun _ _ => True) x.run t.registry s
        (opening t.registry (t.live.map OpenPll.guard)))
      (herror : (x.run t.registry s).1.1 = .error e) : (x.run t.registry s).1.2 = t.registry := by
    have hended := hx.post
    rw [herror] at hended
    exact hended
  refine ⟨fun p hp => (ht.opened p hp).2, fun key => ?_, ht.single, ?_, ?_, ht.pairwise⟩
  · rw [ht.held.isOwned_iff, ht.keys, List.mem_map]
  · intro o platform s e
    exact hfails (opens_output ht.held s o platform)
  · intro pipe s e
    exact hfails (opens_link ht.held s pipe)

end Retune
