import MonitorMerlin.Module.Load
import MonitorMerlin.Tiers.TwoTier

/-! # Coverage of checks -/

namespace MonitorMerlin

open Tally
open List hiding Disjoint

universe u

variable {ι : Type u} [DecidableEq ι] {config : ModuleConfig ι} {module : ModuleState ι}

namespace ClusterNode

end ClusterNode

end MonitorMerlin
