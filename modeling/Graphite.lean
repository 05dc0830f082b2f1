import Graphite.Basic
import Graphite.PerfModel.State
import Graphite.PerfModel.Iterate
import Graphite.PerfModel.MagicPep
import Graphite.PerfModel.Progress
import Graphite.PerfModel.Run
import Graphite.PerfModel.StallResume
import Graphite.PerfModel.Gating
import Graphite.PerfModel.Frequency
import Graphite.PerfModel.Conservation
import Graphite.System.Packet
import Graphite.System.Lcp
import Graphite.System.Mcp
import Graphite.User.PerfCounterSupport
import Graphite.User.CacheCounters
