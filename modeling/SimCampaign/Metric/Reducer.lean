import SimCampaign.Metric.Throughput
import SimCampaign.Statistics
import SimCampaign.Trace.Schedule

/-! The metrics of packet traces: throughput, delay and fairness, of the network and of each entity.
-/

namespace SimCampaign.Metric

def packets (r : Run) : Except Error PacketTrace :=
  match r.artifact? PacketTrace.artifact with
  | some text => ofTable (PacketTrace.parse text)
  | none => .error (.missingArtifact PacketTrace.artifact)

def entities (params : Param.Assignment) : Except Error (List Entity) := do
  .ok (Entity.upTo (← ofParam (params.count Name.stations)))

def numberLabels (n : Nat) : List String := (List.range n).map toString

def entityLabel (i : Nat) : String := if i = 0 then "AP" else "STA " ++ toString i

def entityLabels (n : Nat) : List String := (List.range n).map entityLabel

def meanDelay (t : PacketTrace) : Float :=
  if t.isEmpty then Statistics.nan else Statistics.mean t.delays

def noWarnings (_ : Run) : List Message := []

/-- Warns of traces that the metric is not defined on. -/
def warnUnless (enough : PacketTrace → Bool) (r : Run) : List Message :=
  match packets r with
  | .ok t => if enough t then [] else [.warn ("no packets for " ++ r.id)]
  | .error _ => []

def throughput (w : Window) : Reducer where
  name := "aggr_thr_mbps"
  labels := numberLabels
  compute r := do
    let t ← packets r
    .ok (.scalar (← w.throughput t r.params))
  warnings := noWarnings

/-- Throughput over the offered load. The ratio can exceed one. -/
def normalizedThroughput (w : Window) (o : OfferedLoad) : Reducer where
  name := "norm_aggr_thr"
  labels := numberLabels
  compute r := do
    let t ← packets r
    let x ← w.throughput t r.params
    let load ← o.total r.params
    .ok (.scalar (x / load))
  warnings := noWarnings

def delay : Reducer where
  name := "avg_aggr_delay_ms"
  labels := numberLabels
  compute r := do .ok (.scalar (meanDelay (← packets r)))
  warnings := warnUnless (!·.isEmpty)

def delayDeviation : Reducer where
  name := "std_aggr_delay_ms"
  labels := numberLabels
  compute r := do
    let t ← packets r
    .ok (.scalar (if t.isEmpty then Statistics.nan else Statistics.sampleDeviation t.delays))
  warnings := warnUnless (!·.isEmpty)

def steps (xs : List Float) : List Float := (xs.zip xs.tail).map fun (x, y) => (y - x).abs

def delayVariation : Reducer where
  name := "avg_delay_variation_ms"
  labels := numberLabels
  compute r := do
    let t ← packets r
    .ok (.scalar (if t.length < 2 then Statistics.nan else Statistics.mean (steps t.delays)))
  warnings := warnUnless (2 ≤ ·.length)

def entityThroughputs (w : Window) (t : PacketTrace) (params : Param.Assignment) :
    Except Error (List Float) := do
  (← entities params).mapM fun e => w.throughput (t.fromEntity e) params

def entityThroughput (w : Window) : Reducer where
  name := "user_thr_mbps"
  labels := entityLabels
  compute r := do
    let t ← packets r
    .ok (.vector (← entityThroughputs w t r.params))
  warnings := noWarnings

def entityDelays (t : PacketTrace) (params : Param.Assignment) : Except Error (List Float) := do
  .ok ((← entities params).map fun e => meanDelay (t.fromEntity e))

def entityDelay : Reducer where
  name := "user_avg_delay_ms"
  labels := entityLabels
  compute r := do
    let t ← packets r
    .ok (.vector (← entityDelays t r.params))
  warnings r :=
    match packets r >>= (entityDelays · r.params) with
    | .ok xs => if xs.any Float.isNaN then [.warn ("nan delay for " ++ r.id)] else []
    | .error _ => []

/-- The stations that count for fairness: all of them without allocated periods, else those that
were granted one. -/
def fairnessStations (r : Run) (entities : Nat) : Except Error (List Entity) := do
  if (← ofParam (r.params.int Name.allocationPeriod)) = 0 then
    .ok ((List.range (entities - 1)).map fun i => ⟨i + 1⟩)
  else
    match r.artifact? Schedule.artifact with
    | some text => ofTable (Schedule.stations text)
    | none => .error (.missingArtifact Schedule.artifact)

def pick (xs : List Float) (e : Entity) : Except Error Float :=
  match xs[e.id]? with
  | some x => .ok x
  | none => .error (.entityOutOfRange e)

def fairness (w : Window) : Reducer where
  name := "jain_fairness"
  labels := numberLabels
  compute r := do
    let t ← packets r
    let xs ← entityThroughputs w t r.params
    let stations ← fairnessStations r xs.length
    .ok (.scalar (Statistics.fairness (← stations.mapM (pick xs))))
  warnings := noWarnings

end SimCampaign.Metric
