import SbtExample.Benchmark.RoundTrip
import SbtExample.Benchmark.Termination
import SbtExample.Calculator.Applications
import SbtExample.Calculator.Creation
import SbtExample.Calculator.Forwarding
import SbtExample.Calculator.Retry
import SbtExample.Calculator.Timers
import SbtExample.Finagle.Http
import SbtExample.Finagle.Streaming
import SbtExample.Finagle.Stress
import SbtExample.Haver.Pipelining
import SbtExample.Haver.Progress
import SbtExample.Haver.Servers
import SbtExample.Pi.Overflow
import SbtExample.Pi.Runs
import SbtExample.RedisQueue.Progress
import SbtExample.Rpc.Completion
import SbtExample.Rpc.Correlation
import SbtExample.Rpc.Dispatch
import SbtExample.Rpc.GetInstance
import SbtExample.Rpc.Proxies
import SbtExample.Rpc.Replies
import SbtExample.Rpc.ServerStart
import SbtExample.Rpc.Startup
import SbtExample.Spring.Atomicity
import SbtExample.Websocket.Echo
import SbtExample.Websocket.Lines
import SbtExample.Websocket.ReadLine
import SbtExample.Websocket.Registry
import SbtExample.WordCount.Report
