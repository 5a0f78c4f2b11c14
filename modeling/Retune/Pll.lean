import Retune.Adjustment.Rollback
import Retune.Pll.C10
import Retune.Pll.C20
import Retune.Pll.Combo
import Retune.Pll.Dkl
import Retune.Pll.Link

/-!
# PLLs of any family

What every family can do: read its registers into slots, say which clock the
slots encode, propose dividers for another clock, and write either version.
Clocks are in the unit of the family and are only compared with each other.
-/

namespace Retune

/-- A PLL. Whoever holds one owns its key in the registry. -/
inductive Pll where
  | combo (p : ComboPll)
  | dkl (p : DklPll)
  | c10 (p : C10Pll)
  | c20 (p : C20Pll)
  | dpMn (p : LinkRatio)

namespace Pll

def family : Pll → Family
  | combo _ => .combo
  | dkl _ => .dkl
  | c10 _ => .c10
  | c20 _ => .c20
  | dpMn _ => .dpMn

def key : Pll → PllKey
  | combo p => p.key
  | dkl p => p.key
  | c10 p => p.key
  | c20 p => p.key
  | dpMn p => p.key

def captured : Pll → Bool
  | combo p => p.captured
  | dkl p => p.captured
  | c10 p => p.captured
  | c20 p => p.captured
  | dpMn p => p.captured

def clock (p : Pll) (v : Version) : Float :=
  match p with
  | combo p => p.clock v
  | dkl p => p.clock v
  | c10 p => p.clock v
  | c20 p => p.clock v
  | dpMn p => p.clock v

def block? : Pll → Option Mpll
  | c20 p => some p.block
  | _ => none

def listing : Pll → List Notice
  | combo p => p.listing
  | dkl p => p.listing
  | c10 p => p.listing
  | c20 p => p.listing
  | dpMn p => p.listing

variable {σ : Type} (h : Host σ)

/-- Reads the registers into the slots. What is found becomes the version to
restore and the start of proposals. -/
def capture : Holding Pll σ Unit :=
  fun p s =>
    match p with
    | combo p => let ((r, p), s) := ComboPll.capture h p s; ((r, combo p), s)
    | dkl p => let ((r, p), s) := DklPll.capture h p s; ((r, dkl p), s)
    | c10 p => let ((r, p), s) := C10Pll.capture h p s; ((r, c10 p), s)
    | c20 p => let ((r, p), s) := C20Pll.capture h p s; ((r, c20 p), s)
    | dpMn p => let ((r, p), s) := LinkRatio.capture h p s; ((r, dpMn p), s)

def takeTarget (target : Float) : Holding Pll σ Unit :=
  fun p s =>
    match p with
    | combo p => let ((r, p), s) := ComboPll.takeTarget h target p s; ((r, combo p), s)
    | dkl p => let ((r, p), s) := DklPll.takeTarget h target p s; ((r, dkl p), s)
    | c10 p => let ((r, p), s) := C10Pll.takeTarget h target p s; ((r, c10 p), s)
    | c20 p => let ((r, p), s) := C20Pll.takeTarget h target p s; ((r, c20 p), s)
    | dpMn p => let ((r, p), s) := LinkRatio.takeTarget h target p s; ((r, dpMn p), s)

/-- The PLL with dividers for `target`. -/
def retune (p : Pll) (target : Float) : Fallible σ Pll := (takeTarget h target).leaving p

def program (p : Pll) (v : Version) : Fallible σ Unit :=
  match p with
  | combo p => p.program h v
  | dkl p => p.program h v
  | c10 p => p.program h v
  | c20 p => p.program h v
  | dpMn p => p.program h v

def adjustable : Adjustable Pll σ where
  retune p target := p.retune h target
  program p v := p.program h v
  capture := capture h
  captured p := p.captured
  clock p v := p.clock v
  listing p := p.listing

end Pll

end Retune
