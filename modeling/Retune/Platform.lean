import Retune.Family

/-!
# Platforms and their outputs

Tables only: which family clocks each output, where its clock is routed, and
which device ids belong to a platform.
-/

namespace Retune

/-- A display output. `route` is the register that selects its DPLL, zero when
the PLL is fixed; `gateBit` and `muxShift` are the clock-off bit and the low
bit of the mux field there. -/
structure Output where
  name : String
  family : Family
  clockIndex : UInt32
  route : UInt32
  gateBit : UInt32
  muxShift : UInt32
  pllNumber : UInt32
  deriving DecidableEq, Repr

/-- Ports count from zero, clock indices from one. -/
def Output.port (o : Output) : UInt32 := if o.clockIndex = 0 then 0 else o.clockIndex - 1

/-- The two configuration registers of a Combo DPLL. -/
structure DpllPair where
  cfgcr0 : UInt32
  cfgcr1 : UInt32
  deriving DecidableEq, Repr

inductive Platform where
  | tgl
  | adlS
  | mtl
  deriving DecidableEq, Repr

namespace Platform

def name : Platform → String
  | tgl => "Tgl"
  | adlS => "AdlS"
  | mtl => "Mtl"

def routeRegister : UInt32 := 0x164280

def secondRouteRegister : UInt32 := 0x1642BC

def outputs : Platform → List Output
  | tgl => [
      ⟨"DDI_A", .combo, 1, routeRegister, 10, 0, 0⟩,
      ⟨"DDI_B", .combo, 2, routeRegister, 11, 2, 0⟩,
      ⟨"DDI_C", .combo, 3, routeRegister, 24, 4, 0⟩,
      ⟨"DDI_TC1", .dkl, 4, 0, 0, 0, 0⟩,
      ⟨"DDI_TC2", .dkl, 5, 0, 0, 0, 1⟩,
      ⟨"DDI_TC3", .dkl, 6, 0, 0, 0, 2⟩,
      ⟨"DDI_TC4", .dkl, 7, 0, 0, 0, 3⟩,
      ⟨"DDI_TC5", .dkl, 8, 0, 0, 0, 4⟩,
      ⟨"DDI_TC6", .dkl, 9, 0, 0, 0, 5⟩]
  | adlS => [
      ⟨"DDI_A", .combo, 1, routeRegister, 10, 0, 0⟩,
      ⟨"DDI_C1", .combo, 4, routeRegister, 11, 2, 0⟩,
      ⟨"DDI_C2", .combo, 5, routeRegister, 24, 4, 0⟩,
      ⟨"DDI_C3", .combo, 6, secondRouteRegister, 4, 0, 0⟩,
      ⟨"DDI_C4", .combo, 7, secondRouteRegister, 5, 2, 0⟩]
  | mtl => [
      ⟨"DDI_A", .c10, 1, 0, 0, 0, 0⟩,
      ⟨"DDI_B", .c10, 2, 0, 0, 0, 1⟩,
      ⟨"DDI_TC1", .c20, 4, 0, 0, 0, 3⟩,
      ⟨"DDI_TC2", .c20, 5, 0, 0, 0, 4⟩,
      ⟨"DDI_TC3", .c20, 6, 0, 0, 0, 5⟩,
      ⟨"DDI_TC4", .c20, 7, 0, 0, 0, 6⟩]

/-- The Combo DPLLs, in the order of the mux value that selects them. -/
def dplls : Platform → List DpllPair
  | tgl => [⟨0x164284, 0x164288⟩, ⟨0x16428C, 0x164290⟩, ⟨0x164294, 0x164298⟩]
  | adlS => [⟨0x164284, 0x164288⟩, ⟨0x16428C, 0x164290⟩, ⟨0x16429C, 0x1642A0⟩,
      ⟨0x1642C0, 0x1642C4⟩]
  | mtl => []

/-- Device ids. Those of ADL-P share the outputs of TGL. -/
def deviceIds : Platform → List UInt16
  | tgl => [
      0x9A60, 0x9A68, 0x9A70, 0x9A40, 0x9A49, 0x9A59, 0x9A78, 0x9AC0, 0x9AC9, 0x9AD9, 0x9AF8,
      0x46A0, 0x46A1, 0x46A2, 0x46A3, 0x46A6, 0x46A8, 0x46AA, 0x462A, 0x4626, 0x4628, 0x46B0,
      0x46B1, 0x46B2, 0x46B3, 0x46C0, 0x46C1, 0x46C2, 0x46C3, 0xA7A0, 0xA7A8, 0xA788, 0xA78B]
  | adlS => [
      0x4680, 0x4682, 0x4688, 0x468A, 0x468B, 0x4690, 0x4692, 0x4693, 0xA780, 0xA782, 0xA783]
  | mtl => [0x7D40, 0x7D41, 0x7D60, 0x7D67, 0x7D45, 0x7D55, 0x7DD5, 0x7D51, 0x7DD1]

def ofDeviceId? (id : UInt16) : Option Platform :=
  [adlS, tgl, mtl].find? fun p => p.deviceIds.contains id

def findOutput? (p : Platform) (name : String) : Option Output :=
  p.outputs.find? fun o => o.name.map Char.toLower == name.map Char.toLower

end Platform

end Retune
