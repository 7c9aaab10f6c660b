import EspIotivity.Adapter.FailedConfig
import EspIotivity.Adapter.Monotonic
import EspIotivity.Lightbulb.Blackout
import EspIotivity.Lightbulb.Daemon
import EspIotivity.Lightbulb.Tearing
import EspIotivity.Server.LightResource
import EspIotivity.EventLoop.Wakeup
import EspIotivity.Adapter.Clock
import EspIotivity.Adapter.CredentialStore
import EspIotivity.Adapter.ExactlyOnce
import EspIotivity.Adapter.Lifecycle
import EspIotivity.Adapter.Descriptors
import EspIotivity.Adapter.Watched
import EspIotivity.Adapter.Release
import EspIotivity.Adapter.Turns
import EspIotivity.Adapter.Send
import EspIotivity.Adapter.Shutdown
import EspIotivity.Lightbulb.Conversion
import EspIotivity.Lightbulb.Brightness
import EspIotivity.Lightbulb.OutOfRange
import EspIotivity.Lightbulb.InStep
import EspIotivity.Lightbulb.DutyRange
import EspIotivity.Adapter.SendLoop
import EspIotivity.Adapter.Advertise
import EspIotivity.Client.Discovery
import EspIotivity.Foundation.Observer
import EspIotivity.Server.Task
import EspIotivity.Lightbulb.DaemonTask
import EspIotivity.System.Light
import EspIotivity.Foundation.Network
import EspIotivity.System.Exchange
import EspIotivity.Adapter.Host
import EspIotivity.System.Datagrams
import EspIotivity.Foundation.Refinement
import EspIotivity.System.Deployment
import EspIotivity.Adapter.EventThread
import EspIotivity.System.Startup
import EspIotivity.EventLoop.Settling
import EspIotivity.Adapter.DirectoryStore
import EspIotivity.Lightbulb.Shades
import EspIotivity.Adapter.Accounting
