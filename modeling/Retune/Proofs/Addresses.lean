import Mathlib.Algebra.Group.Nat.Defs
import Mathlib.Data.List.Lattice
import Retune.Bus.Word
import Retune.Pll.Dkl
import Retune.Pll.Link
import Retune.Platform

/-!
# Where registers lie

The addresses of registers as numbers, without wrapping. The stretches that belong
to different PLLs do not meet.
-/

namespace Retune

/-! ## Message-bus registers -/

def busStart (port : Nat) : Nat :=
  if port < 3 then 0x64040 + port * 0x100 else 0x16F240 + (port - 3) * 0x200

theorem busStart_cases (port : Nat) :
    (port < 3 ∧ busStart port = 0x64040 + port * 0x100) ∨
      (3 ≤ port ∧ busStart port = 0x16F240 + (port - 3) * 0x200) := by
  unfold busStart
  split
  · next hthree => exact .inl ⟨hthree, rfl⟩
  · next hthree => exact .inr ⟨Nat.le_of_not_lt hthree, rfl⟩

section
variable {port : UInt32} {lane : UInt8} (hlane : lane.toNat ≤ 1)
  (hfits : busStart port.toNat + 12 < 2 ^ 32)
include hlane hfits

theorem controlRegister_toNat :
    (controlRegister port lane).toNat = busStart port.toNat + lane.toNat * 4 := by
  have hfirst : (port < firstTypeCPort) = (port.toNat < 3) := rfl
  unfold busStart at hfits ⊢
  unfold controlRegister
  simp only [hfirst]
  split
  · next hthree =>
    simp only [UInt32.toNat_add, UInt32.toNat_mul, UInt8.toNat_toUInt32, UInt32.reduceToNat]
    omega
  · next hthree =>
    rw [if_neg hthree] at hfits
    have hsub : (port - firstTypeCPort).toNat = port.toNat - 3 := by
      rw [UInt32.toNat_sub_of_le]
      · rfl
      · exact UInt32.le_iff_toNat_le.mpr (Nat.le_of_not_lt hthree)
    simp only [UInt32.toNat_add, UInt32.toNat_mul, UInt8.toNat_toUInt32, UInt32.reduceToNat, hsub]
    omega

theorem statusRegister_toNat :
    (statusRegister port lane).toNat = busStart port.toNat + lane.toNat * 4 + 8 := by
  have hcontrol := controlRegister_toNat hlane hfits
  have hsum : (statusRegister port lane).toNat =
      ((controlRegister port lane).toNat + 8) % 2 ^ 32 := UInt32.toNat_add _ _
  omega

end

/-! ## Other registers -/

theorem DklPll.registerAddr_toNat (index : UInt8) (r : DklRegister) :
    (DklPll.registerAddr index r).toNat = 0x168000 + 0x1000 * index.toNat + r.offset.toNat := by
  have hindex := index.toNat_lt
  have hoffset : r.offset.toNat ≤ 0x224 := by cases r <;> decide
  simp only [DklPll.registerAddr, DklPll.base, UInt32.toNat_add, UInt32.toNat_mul,
    UInt8.toNat_toUInt32, UInt32.reduceToNat]
  omega

theorem LinkRatio.mRegister_toNat (pipe : UInt8) :
    (LinkRatio.mRegister pipe).toNat = 0x60040 + 0x1000 * pipe.toNat := by
  have hpipe := pipe.toNat_lt
  simp only [LinkRatio.mRegister, UInt32.toNat_add, UInt32.toNat_mul, UInt8.toNat_toUInt32,
    UInt32.reduceToNat]
  omega

theorem dplls_mem {platform : Platform} {regs : DpllPair} (hregs : regs ∈ platform.dplls)
    {a : UInt32} (ha : a ∈ [regs.cfgcr0, regs.cfgcr1]) :
    0x164284 ≤ a.toNat ∧ a.toNat ≤ 0x1642C4 := by
  have hall : ∀ regs ∈ platform.dplls,
      ((0x164284 : UInt32) ≤ regs.cfgcr0 ∧ regs.cfgcr0 ≤ 0x1642C4) ∧
        (0x164284 : UInt32) ≤ regs.cfgcr1 ∧ regs.cfgcr1 ≤ 0x1642C4 := by
    cases platform <;> decide
  simp only [UInt32.le_iff_toNat_le, UInt32.reduceToNat] at hall
  rcases List.mem_pair.mp ha with rfl | rfl
  · exact (hall regs hregs).1
  · exact (hall regs hregs).2

theorem dplls_disjoint {i j : Nat} {x y : Platform} {regs regs' : DpllPair}
    (hregs : x.dplls[i]? = some regs) (hregs' : y.dplls[j]? = some regs') (hne : i ≠ j) :
    List.Disjoint [regs.cfgcr0, regs.cfgcr1] [regs'.cfgcr0, regs'.cfgcr1] := by
  have hall : ∀ e ∈ x.dplls.zipIdx, ∀ e' ∈ y.dplls.zipIdx, e.2 ≠ e'.2 →
      [e.1.cfgcr0, e.1.cfgcr1] ∩ [e'.1.cfgcr0, e'.1.cfgcr1] = [] := by
    cases x <;> cases y <;> decide
  rw [← List.inter_eq_nil_iff_disjoint]
  exact hall (regs, i) (List.mk_mem_zipIdx_iff_getElem?.mpr hregs) (regs', j)
    (List.mk_mem_zipIdx_iff_getElem?.mpr hregs') hne

/-! ## Sites -/

/-- A stretch of addresses that the registers of a PLL lie in. All Combo DPLLs
share one. -/
inductive Site where
  | link (pipe : UInt8)
  | bus (port : UInt32)
  | combo
  | dkl (index : UInt8)

namespace Site

def first : Site → Nat
  | link pipe => 0x60040 + 0x1000 * pipe.toNat
  | bus port => busStart port.toNat
  | combo => 0x164284
  | dkl index => 0x168200 + 0x1000 * index.toNat

def last : Site → Nat
  | link pipe => 0x60044 + 0x1000 * pipe.toNat
  | bus port => busStart port.toNat + 12
  | combo => 0x1642C4
  | dkl index => 0x168224 + 0x1000 * index.toNat

def Exists : Site → Prop
  | link pipe => pipe.toNat < 4
  | _ => True

theorem apart {x y : Site} (hx : x.Exists) (hy : y.Exists) (hne : x ≠ y) :
    x.last < y.first ∨ y.last < x.first := by
  cases x with
  | link i =>
    simp only [Exists] at hx
    cases y with
    | link j =>
      have hij : i.toNat ≠ j.toNat := fun heq => hne (congrArg link (UInt8.toNat_inj.mp heq))
      simp only [first, last]
      omega
    | bus j =>
      have hj := busStart_cases j.toNat
      simp only [first, last]
      omega
    | combo | dkl j =>
      simp only [first, last]
      omega
  | bus i =>
    have hi := busStart_cases i.toNat
    cases y with
    | link j =>
      simp only [Exists] at hy
      simp only [first, last]
      omega
    | bus j =>
      have hj := busStart_cases j.toNat
      have hij : i.toNat ≠ j.toNat := fun heq => hne (congrArg bus (UInt32.toNat_inj.mp heq))
      simp only [first, last]
      omega
    | combo | dkl j =>
      -- from the fourth port on the ports alternate with the DKL PHYs, at offsets that never meet
      simp only [first, last]
      omega
  | combo =>
    cases y with
    | combo => exact absurd rfl hne
    | bus j =>
      have hj := busStart_cases j.toNat
      simp only [first, last]
      omega
    | link j | dkl j =>
      simp only [Exists] at hy
      simp only [first, last]
      omega
  | dkl i =>
    cases y with
    | dkl j =>
      have hij : i.toNat ≠ j.toNat := fun heq => hne (congrArg dkl (UInt8.toNat_inj.mp heq))
      simp only [first, last]
      omega
    | bus j =>
      have hj := busStart_cases j.toNat
      simp only [first, last]
      omega
    | link j | combo =>
      simp only [Exists] at hy
      simp only [first, last]
      omega

end Site

end Retune
