import Zebra.Bgpd.Holdings

namespace Zebra.Bgpd.Rib
open List
variable {Key : Type} [DecidableEq Key] (bgp : Bgp) (cfg : DampConfig)
  (aggregates : Key → List Bool)

/-- A neighbour's path, and an aggregate of the router's own. -/
def mixed : List (Op Unit) :=
  [Flapping.update 1, .aggregateReplace () (some { aspath := some ⟨[]⟩ })]

end Zebra.Bgpd.Rib
