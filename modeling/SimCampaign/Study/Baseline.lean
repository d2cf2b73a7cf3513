import SimCampaign.Metric.Throughput
import SimCampaign.Param.Space

/-! The baseline of a scheduler comparison: a value of every simulation parameter. -/

namespace SimCampaign.Study
open Param (Entry Space)

namespace Name

def applicationType : String := "applicationType"

def socketType : String := "socketType"

def aggregationSize : String := "mpduAggregationSize"

def accessIfAllocated : String := "accessCbapIfAllocated"

def periodMean : String := "onoffPeriodMean"

def periodDeviation : String := "onoffPeriodStdev"

def smartStart : String := "smartStart"

end Name

structure Baseline where
  applicationType : String := "onoff"
  normalizedLoad : Float := 0.75
  socketType : String := "ns3::UdpSocketFactory"
  aggregationSize : Int64 := 262143
  scheme : String := "DMG_MCS4"
  simulationTime : Float := 10.0
  stations : Int64 := 4
  accessIfAllocated : Bool := true
  beaconInterval : Int64 := 102400
  periodMean : Float := 0.1024
  periodDeviation : Float := 0.0
  smartStart : Bool := true

def fixed (v : Param.Value) : Entry := .single v

def sweptInts (ns : List Int64) : Entry := .list (ns.map .int)

def sweptFloats (xs : List Float) : Entry := .list (xs.map .float)

def sweptTexts (names : List String) : Entry := .list (names.map .text)

def sweptBools (bs : List Bool) : Entry := .list (bs.map .bool)

namespace Baseline

/-- The baseline space, loaded through the given parameter. -/
def spaceWithLoad (b : Baseline) (load : String) (entry : Entry) : Except Param.Error Space :=
  Param.Space.ofEntries [
    (Name.applicationType, fixed (.text b.applicationType)),
    (load, entry),
    (Name.socketType, fixed (.text b.socketType)),
    (Name.aggregationSize, fixed (.int b.aggregationSize)),
    (Metric.Name.scheme, fixed (.text b.scheme)),
    (Metric.Name.simulationTime, fixed (.float b.simulationTime)),
    (Metric.Name.stations, fixed (.int b.stations)),
    (Metric.Name.allocationPeriod, sweptInts [0, 1]),
    (Name.accessIfAllocated, fixed (.bool b.accessIfAllocated)),
    (Metric.Name.beaconInterval, fixed (.int b.beaconInterval)),
    (Name.periodMean, fixed (.float b.periodMean)),
    (Name.periodDeviation, fixed (.float b.periodDeviation)),
    (Name.smartStart, fixed (.bool b.smartStart))]

/-- The baseline space, loaded by a share of the physical rate. -/
def space (b : Baseline) : Except Param.Error Space :=
  b.spaceWithLoad Metric.Name.normalizedLoad (fixed (.float b.normalizedLoad))

end Baseline
end SimCampaign.Study
