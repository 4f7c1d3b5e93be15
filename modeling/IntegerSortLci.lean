import IntegerSortLci.Runtime.HandlerPosts
import IntegerSortLci.Runtime.Delivery
import IntegerSortLci.Runtime.ProfileAccounts
import IntegerSortLci.Runtime.LifecycleSafety
import IntegerSortLci.Runtime.ProfileOrder
import IntegerSortLci.Benchmark.BaselineRun
import IntegerSortLci.Benchmark.SortedOutput
import IntegerSortLci.Benchmark.ClassKeys
import IntegerSortLci.Benchmark.BenchmarkCompletion
import IntegerSortLci.Benchmark.Collectives
import IntegerSortLci.Benchmark.BaselineRefinement
import IntegerSortLci.Benchmark.BucketPartition
import IntegerSortLci.Benchmark.LoadBalance
import IntegerSortLci.Benchmark.LocalRanking
import IntegerSortLci.Benchmark.PartialVerification
import IntegerSortLci.Benchmark.GlobalCounts
import IntegerSortLci.Benchmark.FullVerification
import IntegerSortLci.Runtime.Batching
import IntegerSortLci.Runtime.PacketOwnership
import IntegerSortLci.Runtime.CacheTransparency
import IntegerSortLci.Benchmark.KeyGeneration
import IntegerSortLci.Benchmark.WorkspaceBounds
import IntegerSortLci.Benchmark.NeighbourExchange
import IntegerSortLci.Runtime.PhaseNumbers
import IntegerSortLci.Runtime.ConstructionSafety
import IntegerSortLci.Benchmark.RunOptions
import IntegerSortLci.Examples.TypedAmExchange
