import Retune.Stepping.Walk

/-!
# Rehearsals

A rehearsal walks without any hardware and writes down every call of the walk.
Calls can be made to fail, and to request a stop, by their number.
-/

namespace Retune

inductive WalkCall where
  | retune (target : Float)
  | program (v : Version)

/-- The numbers, from one, of the calls at which something happens. -/
structure Cues where
  failRetune? : Option Nat
  failProgram? : Option Nat
  stopRetune? : Option Nat
  stopProgram? : Option Nat

/-- The calls so far, the last one in front, and whether a stop has been
requested. -/
structure Rehearsal where
  calls : List WalkCall
  retunes : Nat
  programs : Nat
  stopped : Bool

namespace Rehearsal

def start (stopped : Bool) : Rehearsal := ⟨[], 0, 0, stopped⟩

def environment : Environment Rehearsal where
  stopRequested _ := return (← get).stopped
  report _ := pure ()
  pause _ := pure ()

def retune (cues : Cues) (target : Float) : Fallible Rehearsal Unit := do
  modify fun r => { r with calls := .retune target :: r.calls, retunes := r.retunes + 1 }
  let n := (← get).retunes
  if cues.stopRetune? = some n then modify fun r => { r with stopped := true }
  if cues.failRetune? = some n then throw (.invalidArgument "fake")

def program (cues : Cues) (v : Version) : Fallible Rehearsal Unit := do
  modify fun r => { r with calls := .program v :: r.calls, programs := r.programs + 1 }
  let n := (← get).programs
  if cues.stopProgram? = some n then modify fun r => { r with stopped := true }
  if cues.failProgram? = some n then throw (.busTimeout 7 1 0xABC)

def walkable (cues : Cues) : Walkable Unit Rehearsal where
  retune _ target := retune cues target
  program _ v := program cues v

def run (cues : Cues) (stopped : Bool) (m : Move) : Except Failure WalkEnd × List WalkCall :=
  let ((ending, _), r) := m.walk environment (walkable cues) .session () (start stopped)
  (ending, r.calls.reverse)

end Rehearsal

end Retune
