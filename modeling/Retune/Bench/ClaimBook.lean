import Retune.Ownership

/-!
# Claims kept under names

A book of claims: a registry, and the guards it granted, each under the name it
was asked for. Names may repeat.
-/

namespace Retune

/-- A registry, and the guards it granted by name. -/
structure ClaimBook where
  registry : Registry
  held : List (String × Guard)

/-- What can be done with a book. A range claims every index in it, under the
name followed by the index. -/
inductive ClaimCommand where
  | claim (key : PllKey) (name : String)
  | claimRange (family : Family) (first last : UInt8) (name : String)
  | release (name : String)
  | isOwned (key : PllKey)

inductive ClaimAnswer where
  | granted (key : PllKey)
  | refused (e : Failure)
  | range (count : Nat) (lastError? : Option (UInt8 × Failure))
  | released (count : Nat)
  | claimed (b : Bool)

def PllKey.describe (key : PllKey) : String :=
  s!"PllGuard \x7b family: {key.family.name}, index: {key.index} \x7d"

namespace ClaimBook

def empty : ClaimBook := ⟨.empty, []⟩

def claim (b : ClaimBook) (key : PllKey) (name : String) : Except Failure Guard × ClaimBook :=
  match (Registry.claim key).run b.registry with
  | (.ok guard, registry) => (.ok guard, ⟨registry, b.held ++ [(name, guard)]⟩)
  | (.error e, registry) => (.error e, { b with registry })

def claimAll (family : Family) (name : String) (b : ClaimBook) :
    List UInt8 → Nat × Option (UInt8 × Failure) × ClaimBook
  | [] => (0, none, b)
  | i :: rest =>
    match b.claim ⟨family, i⟩ (name ++ toString i) with
    | (.ok _, b) =>
      let (count, last?, b) := claimAll family name b rest
      (count + 1, last?, b)
    | (.error e, b) =>
      let (count, last?, b) := claimAll family name b rest
      (count, last?.or (some (i, e)), b)

def release (b : ClaimBook) (name : String) : Nat × ClaimBook :=
  let (gone, kept) := b.held.partition fun e => e.1 == name
  (gone.length, ⟨gone.foldl (fun r e => r.release e.2) b.registry, kept⟩)

def indices (first last : UInt8) : List UInt8 :=
  (List.range' first.toNat (last.toNat + 1 - first.toNat)).map UInt8.ofNat

def run (b : ClaimBook) : ClaimCommand → ClaimAnswer × ClaimBook
  | .claim key name =>
    match b.claim key name with
    | (.ok guard, b) => (.granted guard.key, b)
    | (.error e, b) => (.refused e, b)
  | .claimRange family first last name =>
    let (count, last?, b) := claimAll family name b (indices first last)
    (.range count last?, b)
  | .release name =>
    let (count, b) := b.release name
    (.released count, b)
  | .isOwned key => (.claimed (b.registry.isOwned key), b)

end ClaimBook

end Retune
