import Strix.Engine.System
import Strix.Engine.Stepwise
import Strix.Ring.RoundTrip
import Strix.Ring.Exhaustion
import Strix.Ring.SecondChance
import Strix.Ring.Footprint
import Strix.Ring.Staleness
import Strix.Ring.Interleaved
import Strix.Ring.Drain
import Strix.Ring.Allocation
import Strix.Ring.Contention
import Strix.Semantic.Specification
import Strix.Semantic.ControlWord
import Strix.Semantic.SplitCheck
import Strix.Semantic.FullTable
import Strix.Semantic.Lifespan
import Strix.Semantic.Pioneer
import Strix.Semantic.SecondTier
import Strix.Semantic.Contention
import Strix.Semantic.Refinement
import Strix.Semantic.OwnSlot
import Strix.Gateway.WriteBack
import Strix.Gateway.SingleCall
import Strix.Gateway.Shutdown
import Strix.Gateway.Progress
import Strix.Gateway.WriteQueue
import Strix.Gateway.Outage
import Strix.Gateway.Served
import Strix.Gateway.Startup
