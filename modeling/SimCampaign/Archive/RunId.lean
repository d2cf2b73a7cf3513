import SimCampaign.Param.Assignment

/-! Runs to be simulated. The identifier of a run is a hash of the texts of its parameters. -/

namespace SimCampaign.RunId

/-- The multiplier that spreads each word over the state. -/
def spread : UInt64 := 0x517cc1b727220a95

def rotate5 (x : UInt64) : UInt64 := (x <<< 5) ||| (x >>> 59)

def mix (state word : UInt64) : UInt64 := (rotate5 state ^^^ word) * spread

/-- The word of bytes of which the first is the least. -/
def word (bytes : List UInt8) : UInt64 := bytes.foldr (fun b w => w <<< 8 ||| b.toUInt64) 0

/-- What is left of fewer than eight bytes: a word of four, one of two and one of one. -/
def lastWords : List UInt8 → List UInt64
  | a :: b :: c :: d :: e :: f :: g :: _ => [word [a, b, c, d], word [e, f], word [g]]
  | [a, b, c, d, e, f] => [word [a, b, c, d], word [e, f]]
  | [a, b, c, d, e] => [word [a, b, c, d], word [e]]
  | [a, b, c, d] => [word [a, b, c, d]]
  | [a, b, c] => [word [a, b], word [c]]
  | [a, b] => [word [a, b]]
  | [a] => [word [a]]
  | [] => []

/-- Words of eight bytes as long as there are eight. -/
def words : List UInt8 → List UInt64
  | a :: b :: c :: d :: e :: f :: g :: h :: rest => word [a, b, c, d, e, f, g, h] :: words rest
  | rest => lastWords rest

def textWords (s : String) : List UInt64 := words s.toUTF8.data.toList

/-- Name and value, a zero word after each. -/
def pairWords (pair : String × Param.Value) : List UInt64 :=
  textWords pair.1 ++ 0 :: textWords pair.2.display ++ [0]

def hash (params : Param.Assignment) : UInt64 := (params.pairs.flatMap pairWords).foldl mix 0

def hex16 (x : UInt64) : String :=
  let ds := Nat.toDigits 16 x.toNat
  String.ofList (List.replicate (16 - ds.length) '0' ++ ds)

def ofParams (params : Param.Assignment) : String := hex16 (hash params)

end SimCampaign.RunId

namespace SimCampaign

/-- The parameter that selects the random stream of a repetition. -/
def randomStream : String := "RngRun"

namespace Archive

structure PendingRun where
  id : String
  params : Param.Assignment
  repetition : Nat

/-- A repetition of an assignment, with the random stream of its number. -/
def PendingRun.of (params : Param.Assignment) (repetition : Nat) : PendingRun :=
  let params := params.put randomStream (.ofNat repetition)
  { id := RunId.ofParams params, params, repetition }

end Archive
end SimCampaign
