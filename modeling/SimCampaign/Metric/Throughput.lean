import SimCampaign.Metric.Basic
import SimCampaign.Modulation
import SimCampaign.Trace.Packets

/-! Throughput over a window of the simulated time, and the load a network is offered. -/

namespace SimCampaign.Metric

namespace Name

def stations : String := "numStas"

def simulationTime : String := "simulationTime"

def beaconInterval : String := "biDurationUs"

def scheme : String := "phyMode"

def normalizedLoad : String := "normOfferedTraffic"

def applicationRate : String := "appRate"

def allocationPeriod : String := "allocationPeriod"

end Name

/-- All of the simulated time, or all but the first beacon interval. -/
inductive Window where
  | full
  | skipFirstInterval
  deriving DecidableEq, Repr

/-- Throughput in Mbps. That of no packets is zero, whatever the parameters are. -/
def Window.throughput (w : Window) (t : PacketTrace) (params : Param.Assignment) :
    Except Error Float :=
  if t.isEmpty then .ok 0.0
  else do
    let time ← ofParam (params.float Name.simulationTime)
    match w with
    | .full => .ok (t.totalBytes * 8.0 / 1e6 / time)
    | .skipFirstInterval =>
      let interval : Duration := ⟨(← ofParam (params.count Name.beaconInterval)).toUInt64⟩
      let warmup := interval.secs
      .ok ((t.sentAfter warmup).totalBytes * 8.0 / 1e6 / (time - warmup))

/-- The load is a share of the physical rate split among the stations, or a fixed rate of each. -/
inductive OfferedLoad where
  | physicalShare
  | applicationRate
  deriving DecidableEq, Repr

/-- The rate in Mbps that each of `stations` stations offers. -/
def stationRate (stations : Nat) (scheme : String) (load : Float) : Except Error Float :=
  match Modulation.rate? scheme with
  | some r => .ok (load * r.mbps / Float.ofNat stations)
  | none => .error (.unknownScheme scheme)

/-- The rate in Mbps that all stations offer together. -/
def OfferedLoad.total (o : OfferedLoad) (params : Param.Assignment) : Except Error Float := do
  let stations ← ofParam (params.count Name.stations)
  let each ← match o with
    | .physicalShare => do
      let scheme ← ofParam (params.text Name.scheme)
      let load ← ofParam (params.float Name.normalizedLoad)
      stationRate stations scheme load
    | .applicationRate => do
      let text ← ofParam (params.text Name.applicationRate)
      match DataRate.parse? text with
      | some r => .ok r.mbps
      | none => .error (.badDataRate text)
  .ok (Float.ofNat stations * each)

end SimCampaign.Metric
