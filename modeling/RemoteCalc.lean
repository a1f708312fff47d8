import RemoteCalc.Blocking.Conversation
import RemoteCalc.Blocking.Server
import RemoteCalc.Calculator
import RemoteCalc.Clock
import RemoteCalc.Console.Client
import RemoteCalc.Console.Options
import RemoteCalc.Console.Report
import RemoteCalc.Console.Server
import RemoteCalc.Console.Session
import RemoteCalc.Directory.Endpoint
import RemoteCalc.Directory.Table
import RemoteCalc.EventLoop.Connection
import RemoteCalc.EventLoop.Datagrams
import RemoteCalc.EventLoop.Streams
import RemoteCalc.EventLoop.Watch
import RemoteCalc.Failover
import RemoteCalc.Fault
import RemoteCalc.Json.Library
import RemoteCalc.Json.Plain
import RemoteCalc.Json.Token
import RemoteCalc.Json.Value
import RemoteCalc.Main
import RemoteCalc.Net.Address
import RemoteCalc.Net.Network
import RemoteCalc.Number.Decimal
import RemoteCalc.Number.Layout
import RemoteCalc.Number.Literal
import RemoteCalc.Number.Natural
import RemoteCalc.Number.Rank
import RemoteCalc.Operation
import RemoteCalc.Pool
import RemoteCalc.Server
import RemoteCalc.Service
import RemoteCalc.Span
import RemoteCalc.Text.Blank
import RemoteCalc.Text.Quoted
import RemoteCalc.Text.Showing
import RemoteCalc.Wire.Fault
import RemoteCalc.Wire.Field
import RemoteCalc.Wire.Frame
import RemoteCalc.Wire.Inbox
import RemoteCalc.Wire.Request
import RemoteCalc.Wire.Response
import RemoteCalc.Proofs.Number.Rank
import RemoteCalc.Proofs.Number.Bits
import RemoteCalc.Proofs.Number.Decimal
import RemoteCalc.Proofs.Text.Run
import RemoteCalc.Proofs.Number.Text
import RemoteCalc.Proofs.Number.Grammar
import RemoteCalc.Proofs.Wire.Field
import RemoteCalc.Proofs.Wire.Codec
import RemoteCalc.Proofs.Service
import RemoteCalc.Proofs.Wire.Normal
import RemoteCalc.Proofs.Wire.Frame
import RemoteCalc.Proofs.Wire.Inbox
import RemoteCalc.Proofs.Wire.Faults
import RemoteCalc.Proofs.Blocking.Conversation
import RemoteCalc.Proofs.Blocking.Receiving
import RemoteCalc.Proofs.Wire.Cuts
import RemoteCalc.Proofs.Wire.Limit
import RemoteCalc.Proofs.Wire.Boundary
import RemoteCalc.Proofs.Wire.Accepted
import RemoteCalc.Proofs.Wire.Grammar
import RemoteCalc.Proofs.Fault
import RemoteCalc.Proofs.Failover.Call
import RemoteCalc.Proofs.Failover.Rotation
import RemoteCalc.Proofs.EventLoop.Connection
import RemoteCalc.Proofs.EventLoop.Streams
import RemoteCalc.Proofs.EventLoop.Script
import RemoteCalc.Proofs.EventLoop.Incidents
import RemoteCalc.Proofs.EventLoop.Books
import RemoteCalc.Proofs.Agreement
import RemoteCalc.Proofs.Pool.Sound
import RemoteCalc.Proofs.Pool.Schedule
import RemoteCalc.Proofs.Blocking.Pooled
import RemoteCalc.Proofs.Blocking.Session
import RemoteCalc.Proofs.Datagrams
import RemoteCalc.Proofs.Server
import RemoteCalc.Proofs.Net.Exchange
import RemoteCalc.Proofs.Net.Calls
import RemoteCalc.Proofs.Number.Shortest
import RemoteCalc.Proofs.Number.Layout
import RemoteCalc.Proofs.Json.Token
import RemoteCalc.Proofs.Json.Value
import RemoteCalc.Proofs.Json.Library
import RemoteCalc.Proofs.Json.Plain
import RemoteCalc.Proofs.Directory.Endpoint
import RemoteCalc.Proofs.Directory.Table
import RemoteCalc.Proofs.Wire.Ending
import RemoteCalc.Proofs.Text.Blank
import RemoteCalc.Proofs.Console.Lines
import RemoteCalc.Proofs.Console.Script
import RemoteCalc.Proofs.Console.Program
