import Mathlib.Data.List.Nodup
import Mathlib.Logic.Function.Basic
import Retune.Proofs.Flags

/-!
# PLLs on plain registers

A register file keeps what is written to it and answers it when it is read, and
nothing else changes it. On such a file a capture of a Combo, DKL or link PLL
finds what the registers hold, and programming a version puts it there.
-/

namespace Retune

open Relation

variable {σ : Type}

/-! ## Register files -/

/-- In the states that are `plain`, the registers hold `value`: a write changes
its own register and nothing else changes any. -/
structure RegisterFile (h : Host σ) (st : Station σ) where
  plain : σ → Prop
  value : σ → UInt32 → UInt32
  loaded : ∀ {s} addr, plain s → (h.load addr s).1 = value s addr
  load : ∀ {s} addr, plain s →
    plain (h.load addr s).2 ∧ value (h.load addr s).2 = value s
  store : ∀ {s} addr v, plain s →
    plain (h.store addr v s).2 ∧ value (h.store addr v s).2 = Function.update (value s) addr v
  hostReport : ∀ {s} n, plain s → plain (h.report n s).2 ∧ value (h.report n s).2 = value s
  report : ∀ {s} n, plain s → plain (st.report n s).2 ∧ value (st.report n s).2 = value s
  stopRequested : ∀ {s} signal, plain s →
    plain (st.stopRequested signal s).2 ∧ value (st.stopRequested signal s).2 = value s
  pause : ∀ {s} ms, plain s → plain (st.pause ms s).2 ∧ value (st.pause ms s).2 = value s
  armTimer : ∀ {s} ms generation, plain s →
    plain (st.armTimer ms generation s).2 ∧ value (st.armTimer ms generation s).2 = value s
  cancelTimer : ∀ {s} id, plain s →
    plain (st.cancelTimer id s).2 ∧ value (st.cancelTimer id s).2 = value s
  elapse : ∀ {s}, plain s → plain (st.elapse s).2 ∧ value (st.elapse s).2 = value s

namespace RegisterFile
variable {h : Host σ} {st : Station σ} (file : RegisterFile h st)

def Same (s s' : σ) : Prop := file.plain s' ∧ file.value s' = file.value s

variable {file} {s s' s'' : σ}

theorem Same.refl (hs : file.plain s) : file.Same s s := ⟨hs, rfl⟩

theorem Same.trans (h₁ : file.Same s s') (h₂ : file.Same s' s'') : file.Same s s'' :=
  ⟨h₂.1, h₂.2.trans h₁.2⟩

theorem read (addr : UInt32) (hs : file.plain s) :
    (h.read addr s).1 = file.value s addr ∧ file.Same s (h.read addr s).2 := by
  have hload : file.Same s (h.load addr s).2 := file.load addr hs
  exact ⟨file.loaded addr hs, hload.trans (file.hostReport _ hload.1)⟩

theorem write (addr v : UInt32) (hs : file.plain s) :
    file.plain (h.write addr v s).2 ∧
      file.value (h.write addr v s).2 = Function.update (file.value s) addr v := by
  obtain ⟨hplain, hvalue⟩ := file.hostReport (ApertureNotice.registerWrite addr v) hs
  rw [← hvalue]
  exact file.store addr v hplain

theorem requireFrequency (x : Float) (what : String) (hs : file.plain s) :
    file.Same s ((h.requireFrequency x what).run s).2 := by
  rw [Environment.requireFrequency_run]
  split
  · exact .refl hs
  · exact file.hostReport _ hs

end RegisterFile

/-! ## Writing slots -/

def written (v : Version) (slots : List (Slot UInt32)) (f : UInt32 → UInt32) : UInt32 → UInt32 :=
  slots.foldl (fun f x => Function.update f x.addr (x.value v)) f

theorem written_of_notMem {v : Version} {addr : UInt32} :
    ∀ {slots : List (Slot UInt32)} {f : UInt32 → UInt32}, (∀ x ∈ slots, x.addr ≠ addr) →
      written v slots f addr = f addr
  | [], _, _ => rfl
  | x :: slots, f, hx => by
    show written v slots (Function.update f x.addr (x.value v)) addr = f addr
    rw [written_of_notMem fun y hy => hx y (List.mem_cons_of_mem _ hy)]
    exact Function.update_of_ne (hx x List.mem_cons_self).symm _ _

theorem written_of_mem {v : Version} {addr : UInt32} :
    ∀ {slots : List (Slot UInt32)} {f : UInt32 → UInt32}, (∃ x ∈ slots, x.addr = addr) →
      ∃ x ∈ slots, x.addr = addr ∧ written v slots f addr = x.value v
  | [], _, hx => by
    obtain ⟨x, hx, -⟩ := hx
    cases hx
  | x :: slots, f, hx => by
    by_cases hrest : ∃ y ∈ slots, y.addr = addr
    · obtain ⟨y, hy, haddr, hvalue⟩ := written_of_mem (v := v)
        (f := Function.update f x.addr (x.value v)) hrest
      exact ⟨y, List.mem_cons_of_mem _ hy, haddr, hvalue⟩
    · have hfirst : x.addr = addr := by
        obtain ⟨y, hy, haddr⟩ := hx
        rcases List.mem_cons.mp hy with rfl | hy
        · exact haddr
        · exact absurd ⟨y, hy, haddr⟩ hrest
      refine ⟨x, List.mem_cons_self, hfirst, ?_⟩
      show written v slots (Function.update f x.addr (x.value v)) addr = _
      rw [written_of_notMem fun y hy haddr => hrest ⟨y, hy, haddr⟩, hfirst]
      exact Function.update_self _ _ _

theorem written_of_nodup {v : Version} {slots : List (Slot UInt32)}
    (hslots : (slots.map Slot.addr).Nodup) (f : UInt32 → UInt32) {x : Slot UInt32} (hx : x ∈ slots) :
    written v slots f x.addr = x.value v := by
  obtain ⟨y, hy, haddr, hvalue⟩ := written_of_mem (v := v) (f := f) ⟨x, hx, rfl⟩
  rw [hvalue, List.inj_on_of_nodup_map hslots hy hx haddr]

/-! ## Slots of PLLs -/

namespace Pll

def isPlain : Pll → Bool
  | combo _ | dkl _ | dpMn _ => true
  | _ => false

def slots : Pll → List (Slot UInt32)
  | combo p => [p.cfgcr0, p.cfgcr1]
  | dkl p => DklRegister.writeOrder.map p.slot
  | dpMn p => [p.m, p.n]
  | _ => []

def addrs (p : Pll) : List UInt32 := p.slots.map Slot.addr

end Pll

section
variable {h : Host σ} {st : Station σ} (file : RegisterFile h st) {s : σ}

/-! ## Programming -/

/-- `x` cannot fail, and writes a version of the slots. -/
def Writes (file : RegisterFile h st) (x : Fallible σ Unit) (v : Version) (slots : List (Slot UInt32))
    (s : σ) : Prop :=
  ∃ s', x.run s = (.ok (), s') ∧ file.plain s' ∧ file.value s' = written v slots (file.value s)

theorem writes_two (v : Version) (x y : Slot UInt32) (hs : file.plain s) :
    Writes file (do h.write x.addr (x.value v); h.write y.addr (y.value v)) v [x, y] s := by
  obtain ⟨hplain₁, hvalue₁⟩ := file.write x.addr (x.value v) hs
  obtain ⟨hplain₂, hvalue₂⟩ := file.write y.addr (y.value v) hplain₁
  rw [hvalue₁] at hvalue₂
  exact ⟨_, rfl, hplain₂, hvalue₂⟩

theorem writes_each {ι : Type} (slot : ι → Slot UInt32) (v : Version) :
    ∀ (l : List ι) {s : σ}, file.plain s →
      Writes file (l.forM fun i => h.write (slot i).addr ((slot i).value v)) v (l.map slot) s
  | [], s, hs => ⟨s, rfl, hs, rfl⟩
  | i :: l, s, hs => by
    obtain ⟨hplain, hvalue⟩ := file.write (slot i).addr ((slot i).value v) hs
    obtain ⟨s', hrun, hplain', hvalue'⟩ := writes_each slot v l hplain
    rw [hvalue] at hvalue'
    exact ⟨s', hrun, hplain', hvalue'⟩

theorem Pll.writes_program {p : Pll} (hp : p.isPlain) (v : Version) (hs : file.plain s) :
    Writes file (p.program h v) v p.slots s := by
  cases p with
  | combo p => exact writes_two file v p.cfgcr0 p.cfgcr1 hs
  | dkl p => exact writes_each file p.slot v DklRegister.writeOrder hs
  | dpMn p => exact writes_two file v p.m p.n hs
  | c10 p | c20 p => cases hp

/-! ## Retuning -/

/-- The slots are where they were and hold what was found. -/
def SameFound (slots slots' : List (Slot UInt32)) : Prop :=
  slots'.map (fun x => (x.addr, x.found)) = slots.map fun x => (x.addr, x.found)

def Quiet {α : Type} (file : RegisterFile h st) (x : Fallible σ α) : Prop :=
  ∀ s, file.plain s → file.Same s (x.run s).2

variable {file} {α β : Type}

theorem quiet_pure (a : α) : Quiet file (pure a : Fallible σ α) := fun _ hs => .refl hs

theorem quiet_throw (e : Failure) : Quiet file (throw e : Fallible σ α) := fun _ hs => .refl hs

theorem quiet_report (n : Notice) : Quiet file (liftM (h.report n) : Fallible σ Unit) :=
  fun _ hs => file.hostReport n hs

theorem quiet_then {x : Fallible σ α} {f : α → Fallible σ β} (hx : Quiet file x)
    (hf : ∀ a, Quiet file (f a)) : Quiet file (x >>= f) := by
  intro s hs
  have hsame := hx s hs
  rw [run_then]
  rcases hr : x.run s with ⟨e | a, s₁⟩ <;> rw [hr] at hsame
  · exact hsame
  · exact hsame.trans (hf a s₁ hsame.1)

theorem quiet_map {f : α → β} {x : Fallible σ α} (hx : Quiet file x) : Quiet file (f <$> x) := by
  intro s hs
  rw [map_run]
  exact hx s hs

theorem quiet_requireFrequency (x : Float) (what : String) :
    Quiet file (h.requireFrequency x what) := fun _ hs => file.requireFrequency x what hs

theorem Pll.quiet_retune {p : Pll} (hp : p.isPlain) (clock : Float) :
    Quiet file (p.retune h clock) := by
  rw [retune_eq]
  cases p with
  | combo p =>
    refine quiet_map (quiet_then (quiet_requireFrequency _ _) fun _ => ?_)
    exact quiet_then (quiet_report _) fun _ => quiet_pure _
  | dkl p =>
    refine quiet_map (quiet_then (quiet_requireFrequency _ _) fun _ => ?_)
    dsimp only
    split
    · refine quiet_then (quiet_report _) fun _ => quiet_then (quiet_throw _) fun _ => ?_
      exact quiet_then (quiet_report _) fun _ => quiet_pure _
    · exact quiet_then (quiet_report _) fun _ => quiet_pure _
  | dpMn p => exact quiet_map (quiet_then (quiet_requireFrequency _ _) fun _ => quiet_pure _)
  | c10 p | c20 p => cases hp

theorem Pll.same_retune {p : Pll} (hp : p.isPlain) {clock : Float} {x : Except Failure Pll} {s s' : σ}
    (hs : file.plain s) (hrun : (Pll.adjustable h).retune p clock s = (x, s')) : file.Same s s' := by
  have hsame := Pll.quiet_retune hp clock s hs
  have hleft : ((p.retune h clock).run s).2 = s' := congrArg Prod.snd hrun
  rw [hleft] at hsame
  exact hsame

theorem Pll.found_retune {p : Pll} (hp : p.isPlain) (clock : Float) :
    Answers (p.retune h clock) fun q => q.isPlain ∧ SameFound p.slots q.slots := by
  rw [retune_eq]
  cases p with
  | combo p =>
    refine answers_map (answers_then fun _ => answers_then fun _ => answers_pure ?_)
    exact ⟨rfl, rfl⟩
  | dkl p =>
    have hlast (integer fraction : UInt32) :
        (dkl (p.propose integer fraction)).isPlain ∧
          SameFound (dkl p).slots (dkl (p.propose integer fraction)).slots := ⟨rfl, rfl⟩
    refine answers_map (answers_then fun _ => ?_)
    dsimp only
    split
    · refine answers_then fun _ => answers_then fun _ => answers_then fun _ => ?_
      exact answers_pure (hlast _ _)
    · exact answers_then fun _ => answers_pure (hlast _ _)
  | dpMn p =>
    refine answers_map (answers_then fun _ => answers_pure ?_)
    exact ⟨rfl, rfl⟩
  | c10 p | c20 p => cases hp

/-! ## Capturing -/

def Slot.IsRead (f : UInt32 → UInt32) (x : Slot UInt32) : Prop :=
  x.found = f x.addr ∧ x.proposed = f x.addr

/-- A capture leaves the registers alone, and unless it fails reads them all. -/
def Captures (file : RegisterFile h st) (s : σ) (p : Pll) (r : Except Failure Unit) (p' : Pll)
    (s' : σ) : Prop :=
  file.Same s s' ∧ p'.isPlain ∧ p'.addrs = p.addrs ∧
    (r = .ok () → ∀ x ∈ p'.slots, x.IsRead (file.value s))

theorem isRead_capture {f : UInt32 → UInt32} {x : Slot UInt32} {w : UInt32} (hw : w = f x.addr) :
    (x.capture w).IsRead f := ⟨hw, hw⟩

theorem ComboPll.captures (p : ComboPll) (hs : file.plain s) :
    Reaches (fun _ _ => True) (ComboPll.capture h).run p s
      fun r p' s' => Captures file s (.combo p) r (.combo p') s' := by
  obtain ⟨hw₀, hsame₀⟩ := file.read p.cfgcr0.addr hs
  obtain ⟨hw₁, hsame₁⟩ := file.read p.cfgcr1.addr hsame₀.1
  rw [hsame₀.2] at hw₁
  refine reaches_andThen (reaches_current (reaches_andThen (reaches_call anywhere ?_)))
  refine reaches_andThen (reaches_call anywhere (reaches_andThen (reaches_replace anywhere ?_)))
  refine reaches_call anywhere ⟨?_, rfl, rfl, fun _ => ?_⟩
  · have hsame := hsame₀.trans hsame₁
    exact hsame.trans (file.hostReport _ hsame.1)
  · exact List.forall_mem_cons.mpr ⟨isRead_capture hw₀, List.forall_mem_singleton.mpr (isRead_capture hw₁)⟩

theorem LinkRatio.captures (p : LinkRatio) (hs : file.plain s) :
    Reaches (fun _ _ => True) (LinkRatio.capture h).run p s
      fun r p' s' => Captures file s (.dpMn p) r (.dpMn p') s' := by
  obtain ⟨hw₀, hsame₀⟩ := file.read p.m.addr hs
  obtain ⟨hw₁, hsame₁⟩ := file.read p.n.addr hsame₀.1
  rw [hsame₀.2] at hw₁
  refine reaches_andThen (reaches_current (reaches_andThen (reaches_call anywhere ?_)))
  refine reaches_andThen (reaches_call anywhere (reaches_replace anywhere ?_))
  refine ⟨hsame₀.trans hsame₁, rfl, rfl, fun _ => ?_⟩
  exact List.forall_mem_cons.mpr ⟨isRead_capture hw₀, List.forall_mem_singleton.mpr (isRead_capture hw₁)⟩

theorem DklPll.slot_setSlot (p : DklPll) (r q : DklRegister) (x : Slot UInt32) :
    (p.setSlot r x).slot q = if q = r then x else p.slot q := by
  cases r <;> cases q <;> rfl

theorem DklPll.captures_register (r : DklRegister) (p : DklPll) (hs : file.plain s) :
    Reaches (fun _ _ => True) (DklPll.captureRegister h r).run p s fun a p' s' =>
      file.Same s s' ∧ (∀ q, (p'.slot q).addr = (p.slot q).addr) ∧
        (a = .ok () → (p'.slot r).IsRead (file.value s) ∧ ∀ q ≠ r, p'.slot q = p.slot q) := by
  obtain ⟨hw, hsame⟩ := file.read (p.slot r).addr hs
  refine reaches_andThen (reaches_current (reaches_andThen (reaches_call anywhere ?_)))
  dsimp only [ending]
  split
  · refine reaches_andThen (reaches_call anywhere (reaches_andThen (reaches_throw ?_)))
    exact ⟨hsame.trans (file.hostReport _ hsame.1), fun _ => rfl, nofun⟩
  · refine reaches_replace anywhere ⟨hsame, fun q => ?_, fun _ => ⟨?_, fun q hq => ?_⟩⟩
    · rw [slot_setSlot]
      split
      · next hq => rw [hq]; rfl
      · rfl
    · rw [slot_setSlot, if_pos rfl]
      exact isRead_capture hw
    · rw [slot_setSlot, if_neg hq]

theorem DklPll.captures_registers : ∀ (l : List DklRegister) (p : DklPll) {s : σ}, file.plain s →
    Reaches (fun _ _ => True) (l.forM (DklPll.captureRegister h)).run p s fun a p' s' =>
      file.Same s s' ∧ (∀ q, (p'.slot q).addr = (p.slot q).addr) ∧
        (a = .ok () → (∀ q ∈ l, (p'.slot q).IsRead (file.value s)) ∧
          ∀ q ∉ l, p'.slot q = p.slot q)
  | [], p, s, hs => reaches_ok ⟨.refl hs, fun _ => rfl, fun _ => ⟨nofun, fun _ _ => rfl⟩⟩
  | r :: l, p, s, hs => by
    show Reaches _ (DklPll.captureRegister h r >>= fun _ => l.forM (DklPll.captureRegister h)).run p s _
    refine reaches_andThen ((captures_register r p hs).mono ?_)
    intro a p₁ s₁ hfirst
    obtain ⟨hsame₁, haddr₁, hread₁⟩ := hfirst
    cases a with
    | error e => exact ⟨hsame₁, haddr₁, nofun⟩
    | ok u =>
      obtain ⟨hr, hothers⟩ := hread₁ rfl
      refine (captures_registers l p₁ hsame₁.1).mono ?_
      intro a p₂ s₂ hrest
      obtain ⟨hsame₂, haddr₂, hread₂⟩ := hrest
      refine ⟨hsame₁.trans hsame₂, fun q => (haddr₂ q).trans (haddr₁ q), fun ha => ⟨?_, ?_⟩⟩
      · intro q hq
        -- the rest of the list may read the register again, to the same word
        by_cases hql : q ∈ l
        · rw [← hsame₁.2]
          exact (hread₂ ha).1 q hql
        · rcases List.mem_cons.mp hq with rfl | hq
          · rw [(hread₂ ha).2 q hql]
            exact hr
          · exact absurd hq hql
      · intro q hq
        rw [(hread₂ ha).2 q fun h => hq (List.mem_cons_of_mem _ h)]
        exact hothers q fun h => hq (h ▸ List.mem_cons_self)

theorem DklPll.captures (p : DklPll) (hs : file.plain s) :
    Reaches (fun _ _ => True) (DklPll.capture h).run p s
      fun r p' s' => Captures file s (.dkl p) r (.dkl p') s' := by
  have hall (q : DklRegister) : q ∈ DklRegister.readOrder := by cases q <;> decide
  have haddrs {p p' : DklPll} (h : ∀ q, (p'.slot q).addr = (p.slot q).addr) :
      (Pll.dkl p').addrs = (Pll.dkl p).addrs := by
    unfold Pll.addrs Pll.slots
    rw [List.map_map, List.map_map]
    exact List.map_congr_left fun q _ => h q
  refine reaches_andThen (reaches_change anywhere (reaches_andThen
    ((captures_registers DklRegister.readOrder _ hs).mono ?_)))
  intro a p₁ s₁ h
  obtain ⟨hsame, haddr, hread⟩ := h
  cases a with
  | error e => exact ⟨hsame, rfl, haddrs (fun q => (haddr q).trans (by cases q <;> rfl)), nofun⟩
  | ok u =>
    refine reaches_change anywhere ⟨hsame, rfl, haddrs fun q => ?_, fun _ x hx => ?_⟩
    · have := haddr q
      cases q <;> exact this
    · obtain ⟨q, -, rfl⟩ := List.mem_map.mp hx
      have := (hread rfl).1 q (hall q)
      cases q <;> exact this

theorem Pll.captures {p p' : Pll} (hp : p.isPlain) (hs : file.plain s) {r : Except Failure Unit}
    {s' : σ} (hcapture : Pll.capture h p s = ((r, p'), s')) : Captures file s p r p' s' := by
  cases p with
  | combo p =>
    cases hcapture
    exact (ComboPll.captures p hs).post
  | dkl p =>
    cases hcapture
    exact (DklPll.captures p hs).post
  | dpMn p =>
    cases hcapture
    exact (LinkRatio.captures p hs).post
  | c10 p | c20 p => cases hp

end

end Retune
