import OrderDesk.Main
import OrderDesk.Proofs.Swap.Invariant
import OrderDesk.Proofs.Pipeline.Account
import OrderDesk.Rehearsal
import OrderDesk.Builder
import OrderDesk.Proofs.Price.Inverse
import OrderDesk.Proofs.Swap.Amounts
import OrderDesk.Proofs.Swap.Requote
import OrderDesk.Proofs.Pipeline.Signature
import OrderDesk.Proofs.Abi
import OrderDesk.Proofs.TickReader.Maps
import OrderDesk.Proofs.TickReader.Response
import OrderDesk.Proofs.TickReader.Batches
import OrderDesk.Proofs.TickReader.Walk
import OrderDesk.Proofs.TickReader.Band
import OrderDesk.Proofs.Swap.Termination
import OrderDesk.Proofs.Bytes
import OrderDesk.Proofs.Table
import OrderDesk.Proofs.Fields
import OrderDesk.Proofs.Json.RoundTrip
import OrderDesk.Proofs.Nonce.Ledger
import OrderDesk.Proofs.Nonce.Reuse
import OrderDesk.Proofs.Order.Kind
import OrderDesk.Proofs.Order.Wire
import OrderDesk.Proofs.Signing.Binding
import OrderDesk.Proofs.Pipeline.Atomicity
import OrderDesk.Proofs.Generator.Target
import OrderDesk.Proofs.Generator.Gas
import OrderDesk.Proofs.OrderApi.Foreseen
import OrderDesk.Proofs.OrderApi.Batch
import OrderDesk.Proofs.Position.Owned
import OrderDesk.Proofs.Reading.Snapshot
import OrderDesk.Proofs.Price.Extreme
import OrderDesk.Proofs.Pool.Search
import OrderDesk.Proofs.TickReader.Prefix
import OrderDesk.Proofs.TickReader.Requests
import OrderDesk.Proofs.TickReader.Assembly
import OrderDesk.Proofs.Position.Packed
import OrderDesk.Proofs.Pool.ConfigStore
import OrderDesk.Proofs.Pipeline.Ordering
import OrderDesk.Proofs.Position.Growth
import OrderDesk.Proofs.Pool.Pair
import OrderDesk.Proofs.Builder.LastCalls
