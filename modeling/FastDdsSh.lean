import FastDdsSh.Reception.Buffer
import FastDdsSh.Reception.Shutdown
import FastDdsSh.Reception.Order
import FastDdsSh.Reception.Simulation
import FastDdsSh.Matching
import FastDdsSh.SystemHandle.Containment
import FastDdsSh.Server.Routing
import FastDdsSh.Server.Correlation
import FastDdsSh.Client.Routing
import FastDdsSh.Client.Correlation
import FastDdsSh.Conversion.RoundTrip
import FastDdsSh.Conversion.Positions
import FastDdsSh.Conversion.Keys
import FastDdsSh.Conversion.Aliases
import FastDdsSh.Conversion.Termination
import FastDdsSh.Conversion.Flag
import FastDdsSh.SystemHandle.Builders
import FastDdsSh.Participant.Registration
import FastDdsSh.Server.Failure
import FastDdsSh.Reception.HandOver
import FastDdsSh.Server.Aliases
import FastDdsSh.Server.Maps
import FastDdsSh.Client.Rejection
import FastDdsSh.Navigation.Trees
import FastDdsSh.Navigation.Walks
import FastDdsSh.Client.Search
import FastDdsSh.Client.Permutation
import FastDdsSh.Conversion.BuilderCache
import FastDdsSh.Conversion.Discriminators
import FastDdsSh.Conversion.Balance
import FastDdsSh.Participant.Topics
import FastDdsSh.Client.TypeNames
import FastDdsSh.Rpc.Progress
import FastDdsSh.Rpc.Bookkeeping
import FastDdsSh.Rpc.Network
import FastDdsSh.Reception.Completion
import FastDdsSh.Reception.Delivery
import FastDdsSh.Topic
import FastDdsSh.Bridge
import FastDdsSh.SystemHandle.Objects
import FastDdsSh.Entities
import FastDdsSh.Conversion.Exchange
import FastDdsSh.Locks
