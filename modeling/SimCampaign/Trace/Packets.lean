import SimCampaign.Entity
import SimCampaign.Table.Reader

/-! Traces of received packets. -/

namespace SimCampaign

/-- A received packet: sender, times in nanoseconds and size in bytes. -/
structure Packet where
  source : Float
  sent : Float
  received : Float
  size : Float

def Packet.delay (p : Packet) : Float := p.received - p.sent

abbrev PacketTrace := List Packet

namespace PacketTrace

def artifact : String := "packetsTrace.csv"

def sourceColumn : String := "SrcNodeId"

def sentColumn : String := "TxTimestamp_ns"

def receivedColumn : String := "RxTimestamp_ns"

def sizeColumn : String := "PktSize_B"

def ofColumns : List Float → List Float → List Float → List Float → PacketTrace
  | a :: source, b :: sent, c :: received, d :: size =>
    ⟨a, b, c, d⟩ :: ofColumns source sent received size
  | _, _, _, _ => []

/-- A table without rows is a trace without packets, whatever its columns are. -/
def ofTable (t : Table) : Except TableError PacketTrace :=
  if t.isEmpty then .ok []
  else do
    let source ← t.numeric sourceColumn
    let sent ← t.numeric sentColumn
    let received ← t.numeric receivedColumn
    let size ← t.numeric sizeColumn
    .ok (ofColumns source sent received size)

def parse (text : String) : Except TableError PacketTrace := do ofTable (← Table.parse {} text)

def fromEntity (t : PacketTrace) (e : Entity) : PacketTrace := t.filter (·.source == e.number)

def sentAfter (t : PacketTrace) (secs : Float) : PacketTrace :=
  t.filter fun p => decide (secs < p.sent / 1e9)

/-- The sum of the sizes; a sum starts at negative zero. -/
def totalBytes (t : PacketTrace) : Float := (t.map Packet.size).foldl (· + ·) (-0.0)

def delays (t : PacketTrace) : List Float := t.map fun p => p.delay / 1e9 * 1e3

end PacketTrace
end SimCampaign
