import Sakai.Core.State
import Sakai.Cpu.Stat
import Sakai.Memory.Events
import Sakai.Resources

/-!
# The flat-keyed readers together

Every reader of a flat-keyed file obeys the last-value law for its own keys: up to the retained
input, its outcome is a function of the last value of each key it interprets.
-/

namespace Sakai

open Lib

/-- **The flat-keyed readers depend only on the last value of each interpreted key.** -/
theorem flat_readers_last_value :
    LastValueLaw (Named CpuStat.keys) CpuStat.fromStr ∧
    LastValueLaw (Named CpuTimeStat.keys) CpuTimeStat.fromStr ∧
    LastValueLaw (Named CpuBandwidthStat.keys) CpuBandwidthStat.fromStr ∧
    LastValueLaw (Named CpuBurstStat.keys) CpuBurstStat.fromStr ∧
    LastValueLaw (Named CpuStatLocal.keys) CpuStatLocal.fromStr ∧
    LastValueLaw (Named MemoryEventCounts.keys) MemoryEventCounts.fromStr ∧
    LastValueLaw (Named SwapEvents.keys) SwapEvents.fromStr ∧
    LastValueLaw (Named ["max"]) PidsEvents.fromStr ∧
    LastValueLaw (Named ["max"]) HugetlbEvents.fromStr ∧
    LastValueLaw (Named CgroupEvents.keys) CgroupEvents.fromStr ∧
    LastValueLaw (Named CgroupStatLocal.keys) CgroupStatLocal.fromStr ∧
    LastValueLaw CgroupStat.IsKey CgroupStat.fromStr ∧
    LastValueLaw MiscEvents.IsKey MiscEvents.fromStr :=
  ⟨CpuStat.lastValueLaw, CpuTimeStat.lastValueLaw, CpuBandwidthStat.lastValueLaw,
    CpuBurstStat.lastValueLaw, CpuStatLocal.lastValueLaw, MemoryEventCounts.lastValueLaw,
    SwapEvents.lastValueLaw, parseMaxEvents_lastValueLaw PidsEvents.mk,
    parseMaxEvents_lastValueLaw HugetlbEvents.mk, CgroupEvents.lastValueLaw,
    CgroupStatLocal.lastValueLaw, CgroupStat.lastValueLaw, MiscEvents.lastValueLaw⟩

/-- A line before a later one of its key, and a line of an unknown key, change nothing. -/
theorem flat_readers_last_value_shadowed :
    outcome (CgroupEvents.fromStr "frozen 0\npopulated 1\n".toList) =
      outcome (CgroupEvents.fromStr "populated x\nfrozen 0\nlater 3\npopulated 1\n".toList) := by
  have hlaw := flat_readers_last_value.2.2.2.2.2.2.2.2.2.1
  have hshadowed := hlaw.shadowed "frozen 0\npopulated 1\n".toList
    "populated x\nfrozen 0\npopulated 1\n".toList [] _ "populated".toList "x".toList (by decide)
    (by decide) rfl rfl (by decide)
  exact hshadowed.trans (hlaw.unknown _ _
    [("populated".toList, "x".toList), ("frozen".toList, "0".toList)] _ "later".toList "3".toList
    (by decide) (by decide) rfl rfl (by unfold Named; decide))

end Sakai
