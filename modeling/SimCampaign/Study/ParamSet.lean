import SimCampaign.Study.Baseline
import SimCampaign.Study.Sweep

/-! The predefined sweeps of the scheduler comparison. -/

namespace SimCampaign.Study
open Param (Space)

inductive ParamSet where
  | basic
  | onoff
  | onoffDeviation
  | servicePeriodicity
  | onoffPeriodicity
  | modulation
  | stations
  | smartStart
  | accessIfAllocated
  deriving DecidableEq, Repr

namespace ParamSet

def all : List ParamSet :=
  [.basic, .onoff, .onoffDeviation, .servicePeriodicity, .onoffPeriodicity, .modulation, .stations,
    .smartStart, .accessIfAllocated]

/-- The name on the command line and of the folder of charts. -/
def name : ParamSet → String
  | .basic => "basic"
  | .onoff => "onoff"
  | .onoffDeviation => "onoff-stdev"
  | .servicePeriodicity => "sp-periodicity"
  | .onoffPeriodicity => "onoff-periodicity"
  | .modulation => "mcs"
  | .stations => "num-stas"
  | .smartStart => "smart-start"
  | .accessIfAllocated => "access-cbap-if-allocated"

def ofName? (s : String) : Option ParamSet := all.find? (·.name == s)

def loads : List Float := [0.01, 0.1, 0.2, 0.3, 0.4, 0.5, 0.6, 0.7, 0.8, 0.9, 1.0]

/-- Zero is contention alone, `n` a service period every `n`-th part of the beacon interval. -/
def allocationPeriods : List Int64 := [0, 1, 2, 3, 4]

def applications : List String := ["constant", "onoff", "crazyTaxi", "fourElements"]

def framePeriod : Float := 1.0 / 30.0

def deviationRatios : List Float := [0.0, 1e-3, 2e-3, 5e-3, 1e-2, 2e-2, 5e-2, 10e-2, 20e-2]

def periodRatios : List Float :=
  [1.0, 1.75 * 0.5, 1.5 * 0.5, 1.25 * 0.5, 1.1 * 0.5, 0.5, 0.5 / 1.1, 0.5 / 1.25, 0.5 / 1.5,
    0.5 / 1.75, 1.0 / 4.0]

def changes (set : ParamSet) (b : Baseline) : List (String × Param.Entry) :=
  let onoff := (Name.applicationType, fixed (.text "onoff"))
  match set with
  | .basic => [
      (Name.applicationType, fixed (.text "constant")),
      (Metric.Name.allocationPeriod, sweptInts allocationPeriods),
      (Metric.Name.normalizedLoad, sweptFloats loads)]
  | .onoff => [onoff, (Metric.Name.normalizedLoad, sweptFloats loads)]
  | .onoffDeviation => [onoff,
      (Name.periodDeviation, sweptFloats (deviationRatios.map (· * b.periodMean)))]
  | .servicePeriodicity => [
      (Name.applicationType, sweptTexts applications),
      (Metric.Name.allocationPeriod, sweptInts allocationPeriods),
      (Name.periodMean, fixed (.float framePeriod)),
      (Name.periodDeviation, fixed (.float (0.1 * framePeriod)))]
  | .onoffPeriodicity =>
    let interval := Float.ofInt b.beaconInterval.toInt / 1e6
    [onoff, (Metric.Name.allocationPeriod, sweptInts [0, 2]),
      (Name.periodMean, sweptFloats (periodRatios.map (· * interval)))]
  | .modulation => [onoff, (Metric.Name.scheme, sweptTexts Modulation.schemes)]
  | .stations => [onoff, (Metric.Name.stations, sweptInts [2, 4, 6, 8, 10])]
  | .smartStart => [onoff, (Name.smartStart, sweptBools [true, false])]
  | .accessIfAllocated => [onoff, (Name.accessIfAllocated, sweptBools [true, false])]

def loadLabel : String := "Aggr. Offered Rate / PHY Rate"

def plotted (set : ParamSet) (space : Space) : Sweep :=
  let byPeriod (x xLabel forEach : String) : Sweep :=
    Sweep.ofSpace space x Metric.Name.allocationPeriod xLabel forEach
  match set with
  | .basic | .onoff =>
    byPeriod Metric.Name.normalizedLoad loadLabel Metric.Name.normalizedLoad
  | .onoffDeviation =>
    { byPeriod Name.periodDeviation "Period Deviation Ratio" Name.periodDeviation with
      xValues := deviationRatios.map .float
      xScale := .log
      alias? := some ("onOffPeriodDeviationRatio", deviationRatios.map .float) }
  | .servicePeriodicity =>
    Sweep.ofSpace space Metric.Name.allocationPeriod Name.applicationType
      "Allocation period (BI/n, 0=CBAP)" Name.applicationType
  | .onoffPeriodicity =>
    { byPeriod Name.periodMean "OnOff App mean period (BI^-1)" Metric.Name.allocationPeriod with
      xValues := periodRatios.map .float }
  | .modulation => byPeriod Metric.Name.scheme "MCS" Metric.Name.scheme
  | .stations => byPeriod Metric.Name.stations Metric.Name.stations Metric.Name.stations
  | .smartStart => byPeriod Name.smartStart Name.smartStart Metric.Name.allocationPeriod
  | .accessIfAllocated =>
    byPeriod Name.accessIfAllocated Name.accessIfAllocated Metric.Name.allocationPeriod

def setAll (space : Space) : List (String × Param.Entry) → Except Param.Error Space
  | [] => .ok space
  | (name, entry) :: rest => do setAll (← space.set name entry) rest

def sweep (set : ParamSet) (b : Baseline) : Except Param.Error Sweep := do
  .ok (set.plotted (← setAll (← b.space) (set.changes b)))

end ParamSet

/-- Settings of smart start and of contention access that are compared at a fixed rate. -/
def accessSettings : List (Bool × Bool) := [(true, true), (false, true), (false, false)]

/-- Sweeps the number of stations at a fixed application rate of each. -/
def fixedRate (b : Baseline) (rate : String) (smartStart access : Bool) :
    Except Param.Error Sweep := do
  let space ← b.spaceWithLoad Metric.Name.applicationRate (fixed (.text rate))
  let space ← ParamSet.setAll space [
    (Metric.Name.stations, sweptInts [1, 2, 3, 4, 5, 6, 7, 8, 9, 10]),
    (Name.smartStart, fixed (.bool smartStart)),
    (Name.accessIfAllocated, fixed (.bool access))]
  .ok (Sweep.ofSpace space Metric.Name.stations Metric.Name.allocationPeriod Metric.Name.stations
    Metric.Name.stations)

end SimCampaign.Study
