import CodaNode.Config.DeviceConfig
import CodaNode.Config.Fetch
import CodaNode.Config.Reconnect
import CodaNode.Config.Teardown
import CodaNode.Consumer.Accounts
import CodaNode.Consumer.Backoff
import CodaNode.Consumer.Delivery
import CodaNode.Consumer.Drain
import CodaNode.Consumer.Exclusive
import CodaNode.Consumer.Outage
import CodaNode.Consumer.Recovery
import CodaNode.Consumer.Reporting
import CodaNode.Consumer.Resilience
import CodaNode.Consumer.Shutdown
import CodaNode.Consumer.Suppression
import CodaNode.Consumer.Wedge
import CodaNode.Ir.Executable
import CodaNode.Qasm.Errors
import CodaNode.Qasm.Accounting
import CodaNode.Qasm.Measurements
import CodaNode.Server.Daemon
import CodaNode.Server.Executor
import CodaNode.Vpn.Interface
import CodaNode.Vpn.Guard
import CodaNode.Vpn.Profile
import CodaNode.Webhook.Retry
import CodaNode.Consumer.Restart
import CodaNode.Consumer.Crew
import CodaNode.Consumer.CrewLoop
import CodaNode.Consumer.Finality
import CodaNode.Consumer.BatchPath
import CodaNode.Consumer.Courier
import CodaNode.Consumer.CourierRun
import CodaNode.Consumer.Progress
