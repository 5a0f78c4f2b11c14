/-!
# PLL families

Every display output is clocked by a PLL of one of five families. A PLL is
named by its family and its index there.
-/

namespace Retune

/-- The families whose PLL can be retuned. `dpMn` stands for the link ratio of
a DisplayPort pipe, which serves as a clock. -/
inductive Family where
  | combo
  | dkl
  | c10
  | c20
  | dpMn
  deriving DecidableEq, Repr, Inhabited

def Family.name : Family → String
  | combo => "Combo"
  | dkl => "Dkl"
  | c10 => "C10"
  | c20 => "C20"
  | dpMn => "DpMn"

structure PllKey where
  family : Family
  index : UInt8
  deriving DecidableEq, Repr

end Retune
