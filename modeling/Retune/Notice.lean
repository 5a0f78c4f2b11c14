import Retune.Notice.Hardware
import Retune.Notice.Pll
import Retune.Notice.Adjustment

/-!
# Notices

Everything the library reports while it works. A notice is a cause with its
particulars; only a listener that wants it asks for the text.
-/

namespace Retune

inductive Notice where
  | aperture (n : ApertureNotice)
  | bus (n : BusNotice)
  | pll (n : PllNotice)
  | claim (n : ClaimNotice)
  | walk (n : WalkNotice)
  | adjustment (n : AdjustmentNotice)
  | timer (n : TimerNotice)

namespace Notice

def level : Notice → Level
  | aperture n => n.level
  | bus n => n.level
  | pll n => n.level
  | claim n => n.level
  | walk n => n.level
  | adjustment n => n.level
  | timer n => n.level

def text : Notice → String
  | aperture n => n.text
  | bus n => n.text
  | pll n => n.text
  | claim n => n.text
  | walk n => n.text
  | adjustment n => n.text
  | timer n => n.text

instance : Coe ApertureNotice Notice := ⟨aperture⟩
instance : Coe BusNotice Notice := ⟨bus⟩
instance : Coe PllNotice Notice := ⟨pll⟩
instance : Coe ClaimNotice Notice := ⟨claim⟩
instance : Coe WalkNotice Notice := ⟨walk⟩
instance : Coe AdjustmentNotice Notice := ⟨adjustment⟩
instance : Coe TimerNotice Notice := ⟨timer⟩

end Notice

end Retune
