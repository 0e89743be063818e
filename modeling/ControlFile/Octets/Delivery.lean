import ControlFile.Octets.Fault

/-!
# Delivery in steps

A decoder delivers the octets that it obtains in steps. A step looks at `Delivery.portion` octets of
the data at most and obtains that many octets at most; what it has obtained is given out when it
ends, and the next step goes on from there. So a step ends

* where a bit is read that lies beyond the octets it looks at (`Delivery.readTo`), or
* where another octet is obtained and there is no room for it (`Delivery.withRoom`).

What comes of this shows at a broken rule only: the step in which it is noticed gives nothing out
(`Delivery.before`). Where the data just ends, everything obtained is given out.
-/

namespace ControlFile

/-- The octets obtained from data, and how far the steps have come. -/
structure Delivery where
  octets : Array UInt8
  /-- How many of these octets the steps before this one have given out. -/
  given : Nat
  /-- The octets of the data that this step and the steps before it look at, from the start. -/
  horizon : Nat

namespace Delivery

/-- The greatest number of octets that a step looks at, and that it obtains. -/
def portion : Nat := 8192

/-- Nothing obtained, in the first step. -/
def start : Delivery := { octets := #[], given := 0, horizon := portion }

/-- The next step, which looks at the data after this many octets. -/
def nextStep (d : Delivery) (octetsRead : Nat) : Delivery :=
  { d with given := d.octets.size, horizon := octetsRead + portion }

/-- The delivery once the bits up to a position have been read. -/
def readTo (d : Delivery) (position : Nat) : Delivery :=
  if 8 * d.horizon < position then d.nextStep d.horizon else d

/-- The delivery with room for another octet, this many octets of the data having been read. -/
def withRoom (d : Delivery) (octetsRead : Nat) : Delivery :=
  if d.given + portion ≤ d.octets.size then d.nextStep octetsRead else d

/-- The delivery with another octet, this many octets of the data having been read. -/
def push (d : Delivery) (octetsRead : Nat) (octet : UInt8) : Delivery :=
  let d := d.withRoom octetsRead
  { d with octets := d.octets.push octet }

/-- The octets that are given out before a fault. -/
def before (d : Delivery) : Fault → Array UInt8
  | .endsEarly => d.octets
  | .broken _ position => d.octets.take (d.readTo position).given

/-! ### What is given out -/

@[simp] theorem octets_nextStep (d : Delivery) (octetsRead : Nat) :
    (d.nextStep octetsRead).octets = d.octets := rfl

@[simp] theorem octets_readTo (d : Delivery) (position : Nat) :
    (d.readTo position).octets = d.octets := by
  unfold readTo
  split <;> simp

@[simp] theorem octets_withRoom (d : Delivery) (octetsRead : Nat) :
    (d.withRoom octetsRead).octets = d.octets := by
  unfold withRoom
  split <;> simp

/-- The steps do not change which octets are obtained. -/
@[simp] theorem octets_push (d : Delivery) (octetsRead : Nat) (octet : UInt8) :
    (d.push octetsRead octet).octets = d.octets.push octet := by
  simp [push]

end Delivery

end ControlFile
