import SmartC.Cluster.Assignment
import SmartC.Cluster.Commands
import SmartC.Cluster.Heartbeats
import SmartC.Cluster.Input
import SmartC.Cluster.Output
import SmartC.Executor.Cancel
import SmartC.Executor.Deadlock
import SmartC.Executor.Dispatch
import SmartC.Executor.Fairness
import SmartC.Executor.Phases
import SmartC.Executor.Redemption
import SmartC.Executor.Stdin
import SmartC.Executor.Websocket
import SmartC.Lsp.Atomicity
import SmartC.Lsp.Attachment
import SmartC.Lsp.Deadlines
import SmartC.Lsp.Lifecycle
import SmartC.Lsp.Rebuild
import SmartC.Lsp.Removal
import SmartC.Lsp.Teardown
import SmartC.Lsp.UriScan
import SmartC.Web.BodySize
import SmartC.Web.LspTransport
import SmartC.Web.Project
import SmartC.Web.RetryAfter
import SmartC.Web.Shield
import SmartC.Web.Stop
import SmartC.Web.Visitors
import SmartC.Worker.Backend
import SmartC.Worker.Forwarding
