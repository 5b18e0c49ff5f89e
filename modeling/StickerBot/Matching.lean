import StickerBot.Layout
set_option autoImplicit false

/-!
# Matching plugs and sockets

Every plug is tried against every socket of every other statement. The overlapping pairs are
taken from the nearest to the farthest, and a pair is joined if both its ends are still free.

## Main definitions

* `Matching.End`, `Matching.Candidate` — an end of a connection, and an overlapping pair.
* `Matching.candidates` — all overlapping pairs.
* `Layout.connectBy` — the layout with its pairs joined, and how many were; for any measure of
  overlap.
* `Layout.connect` — the same for the overlap of zones.

## Design

The measure of overlap is a parameter: nothing here depends on how zones lie in the plane,
only on which pairs overlap and in which order their distances stand. Pairs at the same
distance are taken in the order of their ends, so the outcome never depends on the order in
which pairs are found.
-/

namespace StickerBot

namespace Matching

/-- **End.** A connector, by the number of its statement and its place there. -/
structure End where
  statement : Nat
  index : Nat
deriving DecidableEq, Repr, Inhabited

/-- The order of ends: by statement, then by place. -/
def End.compare : End → End → Ordering :=
  compareLex (compareOn End.statement) (compareOn End.index)

/-- **Candidate.** A plug and a socket that overlap. -/
structure Candidate (δ : Type) where
  distance : δ
  plug : End
  socket : End
deriving Repr

variable {δ : Type}

/-- The order in which candidates are taken: by distance, plug and socket. -/
def Candidate.compare (distances : δ → δ → Ordering) :
    Candidate δ → Candidate δ → Ordering :=
  compareLex (fun a b => distances a.distance b.distance)
    (compareLex (fun a b => a.plug.compare b.plug) (fun a b => a.socket.compare b.socket))

/-- The connectors of one sort with their ends. -/
def ends (l : Layout) (plugs : Bool) : List (End × Connector) :=
  l.numbered.flatMap fun (s, id) =>
    (s.connectors.zipIdx.filter fun (c, _) => c.direction.isPlug = plugs).map fun (c, i) =>
      (⟨id, i⟩, c)

/-- Every overlapping pair of a plug and a socket on different statements. -/
def candidates (overlap : Zone → Zone → Option δ) (l : Layout) : List (Candidate δ) :=
  let sockets := ends l false
  (ends l true).flatMap fun (p, plug) =>
    sockets.filterMap fun (q, socket) =>
      if p.statement = q.statement then none
      else (overlap plug.zone socket.zone).map fun d => ⟨d, p, q⟩

/-- Whether a connector exists and leads nowhere. -/
def isFree (l : Layout) (e : End) : Bool :=
  match (l.get? e.statement).bind fun s => s.connectors[e.index]? with
  | some c => c.target.isNone
  | none => false

/-- Joins the ends of a pair if both are free, and counts it. -/
def join (state : Layout × Nat) (c : Candidate δ) : Layout × Nat :=
  let (l, count) := state
  if isFree l c.plug && isFree l c.socket then
    ((l.setTarget c.plug.statement c.plug.index (some c.socket.statement)).setTarget
      c.socket.statement c.socket.index (some c.plug.statement), count + 1)
  else (l, count)

end Matching

open Matching in
/-- **Connecting.** The layout with its plugs and sockets joined, the nearest pairs first, and
how many pairs were joined. Earlier connections are forgotten. -/
def Layout.connectBy {δ : Type} (distances : δ → δ → Ordering)
    (overlap : Zone → Zone → Option δ) (l : Layout) : Layout × Nat :=
  let cleared := l.clearTargets
  let inOrder := (candidates overlap cleared).mergeSort fun a b =>
    (a.compare distances b).isLE
  inOrder.foldl join (cleared, 0)

/-- Connecting by the overlap of zones in the plane. -/
def Layout.connect (l : Layout) : Layout × Nat := l.connectBy compareTotal Zone.overlap

end StickerBot
