set_option autoImplicit false

/-!
# Plane geometry of the page

Positions are pixels of the photograph, with `y` growing downward. All numbers are singles,
and every sum and product is rounded as it stands.

## Main definitions

* `Point`, `Point.distance`, `Point.offsetRotated` — points, distances, turned offsets.
* `Marker` — one marker found on the page.
* `Zone`, `Zone.overlap` — circles, and how far apart two overlapping ones are.
* `compareTotal` — the order of singles that also places zeros of both signs, infinities and
  what is no number.
-/

namespace StickerBot

/-- **Length.** The length of the vector with the given sides, rounded once. It is infinite
if either side is, whatever the other. -/
def hypotenuse (x y : Float32) : Float32 :=
  if x.isInf || y.isInf then Float32.ofBits 0x7f800000
  else
    let u := x.toFloat
    let v := y.toFloat
    (u * u + v * v).sqrt.toFloat32

/-- The place of a single in the total order: the greater its bits the further from zero, on
the side of its sign. -/
def totalRank (x : Float32) : Int :=
  let n := x.toBits.toNat
  if n < 0x80000000 then n else 0x7fffffff - (n : Int)

/-- **Total order.** Compares singles by their place in the total order. -/
def compareTotal (x y : Float32) : Ordering := compare (totalRank x) (totalRank y)

/-- **Point.** A place on the page. -/
structure Point where
  x : Float32
  y : Float32
deriving DecidableEq, Inhabited

namespace Point

/-- The distance of two points. -/
def distance (p q : Point) : Float32 := hypotenuse (p.x - q.x) (p.y - q.y)

/-- The point that lies `(dx, dy)`, turned by an angle, away. -/
def offsetRotated (p : Point) (dx dy angle : Float32) : Point :=
  let sin := angle.toFloat.sin.toFloat32
  let cos := angle.toFloat.cos.toFloat32
  ⟨p.x + dx * cos - dy * sin, p.y + dx * sin + dy * cos⟩

end Point

/-- **Marker.** One marker as it was found on the page. -/
structure Marker where
  /-- The number it encodes. -/
  code : UInt32
  /-- Its centre. -/
  position : Point
  /-- How far it is turned, in radians. -/
  rotation : Float32
  /-- Its diameter in pixels. -/
  diameter : Float32
deriving DecidableEq, Inhabited

/-- **Zone.** A circle on the page. -/
structure Zone where
  center : Point
  radius : Float32
deriving DecidableEq, Inhabited

namespace Zone

/-- **Overlap.** The distance of the centres of two zones, if it is less than both radii
together. -/
def overlap (a b : Zone) : Option Float32 :=
  let d := a.center.distance b.center
  if d < a.radius + b.radius then some d else none

end Zone

end StickerBot
