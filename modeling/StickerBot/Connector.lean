import StickerBot.Geometry
set_option autoImplicit false

/-!
# Connectors: where stickers meet

A sticker has connectors around it. A plug reaches out for another sticker and a socket
receives one; they meet where their zones overlap.

## Main definitions

* `Direction` — sockets, plugs of the flow, and plugs for parameters.
* `ConnectorTemplate`, `ConnectorTemplate.zoneFor` — a connector as the catalog describes it,
  and its zone around a marker.
* `Connector` — a connector of a statement on the page.
-/

namespace StickerBot

/-- **Direction.** Which way a connector points. -/
inductive Direction where
  /-- A socket, which receives a plug. -/
  | incoming
  /-- A plug to the next statement. -/
  | outgoing
  /-- A plug to a parameter. -/
  | parameter
deriving DecidableEq, Repr, Inhabited

/-- Whether the connector is a plug. -/
def Direction.isPlug : Direction → Bool
  | .incoming => false
  | .outgoing | .parameter => true

/-- **Connector template.** Where a connector lies around a marker, in diameters of it. -/
structure ConnectorTemplate where
  name : String
  direction : Direction
  dx : Float32
  dy : Float32
  radius : Float32
deriving DecidableEq, Inhabited

/-- The zone of the connector around a marker: it grows and turns with the marker. -/
def ConnectorTemplate.zoneFor (t : ConnectorTemplate) (m : Marker) : Zone :=
  let d := m.diameter
  ⟨m.position.offsetRotated (t.dx * d) (t.dy * d) m.rotation, t.radius * d⟩

/-- **Connector.** A connector of a statement, and the statement it is connected to. -/
structure Connector where
  name : String
  direction : Direction
  zone : Zone
  /-- The statement on the other side. -/
  target : Option Nat
deriving DecidableEq, Inhabited

namespace Connector

/-- The connector of a marker, not connected yet. -/
def ofTemplate (t : ConnectorTemplate) (m : Marker) : Connector :=
  ⟨t.name, t.direction, t.zoneFor m, none⟩

/-- Whether the connector is connected. -/
def isConnected (c : Connector) : Bool := c.target.isSome

end Connector

end StickerBot
