import SimCampaign.Chart.Figure
import SimCampaign.Param.Space

/-! Swept parameter spaces together with how they are plotted. -/

namespace SimCampaign.Study
open Param (Space)

structure Sweep where
  space : Space
  /-- The dimension on the x axis of line charts. -/
  x : String
  /-- The positions on the x axis, one for each coordinate. -/
  xValues : List Param.Value
  xLabel : String
  xScale : Chart.Scale := .linear
  /-- The dimension with one line for each value. -/
  hue : String
  /-- The dimension with a folder of bar charts for each value. -/
  forEach : String
  /-- Names the folders after a derived quantity. -/
  alias? : Option (String × List Param.Value) := none

namespace Sweep

def candidates (space : Space) (name : String) : List Param.Value :=
  ((space.get? name).map Param.Entry.values).getD []

def ofSpace (space : Space) (x hue xLabel forEach : String) : Sweep :=
  { space, x, xValues := candidates space x, xLabel, hue, forEach }

def folderName (name : String) (v : Param.Value) : String := name ++ "_" ++ v.display ++ "_bars"

/-- The folders of bar charts with the values they are for. -/
def barFolders (s : Sweep) : List (String × Param.Value) :=
  let values := candidates s.space s.forEach
  let (name, aliases) := s.alias?.getD (s.forEach, values)
  (values.zip aliases).map fun (v, a) => (folderName name a, v)

end Sweep
end SimCampaign.Study
