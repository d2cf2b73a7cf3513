/-! Mean, deviation and fairness of lists of numbers. -/

namespace SimCampaign.Statistics

def nan : Float := 0.0 / 0.0

/-- Moves a mean of `count` numbers by each further number in turn. -/
def runningMean : Nat → Float → List Float → Float
  | _, m, [] => m
  | count, m, x :: xs => runningMean (count + 1) (m + (x - m) / Float.ofNat (count + 1)) xs

def mean (xs : List Float) : Float := if xs.isEmpty then nan else runningMean 0 0.0 xs

/-- Sum and sum of squared deviations of the numbers so far, `count` of them. -/
def squaredDeviations : Nat → Float → Float → List Float → Float
  | _, _, v, [] => v
  | count, sum, v, x :: xs =>
    let i := Float.ofNat (count + 1)
    let sum := sum + x
    let d := i * x - sum
    squaredDeviations (count + 1) sum (v + d * d / (i * (i - 1.0))) xs

/-- The sample deviation, undefined for fewer than two numbers. -/
def sampleDeviation : List Float → Float
  | x :: y :: xs =>
    let v := squaredDeviations 1 x 0.0 (y :: xs)
    (v / (Float.ofNat (xs.length + 2) - 1.0)).sqrt
  | _ => nan.sqrt

/-- The population deviation, undefined for no number and zero for one. -/
def populationDeviation : List Float → Float
  | x :: xs => (squaredDeviations 1 x 0.0 xs / Float.ofNat (xs.length + 1)).sqrt
  | [] => nan

section Fairness
variable {α : Type} [Add α] [Mul α] [Div α]

def sumFrom (zero : α) (xs : List α) : α := xs.foldl (· + ·) zero

/-- The square of the mean over the mean of the squares, where `n` is the count of numbers. -/
def fairnessOver (zero n : α) (xs : List α) : α :=
  let m := sumFrom zero xs / n
  let squares := sumFrom zero (xs.map fun x => x * x) / n
  m * m / squares

end Fairness

def fairness (xs : List Float) : Float := fairnessOver (-0.0) (Float.ofNat xs.length) xs

end SimCampaign.Statistics
