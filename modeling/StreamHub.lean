import StreamHub.Scte35.Damage
import StreamHub.Scte35.InjectExtract
import StreamHub.Scte35.Clocks
import StreamHub.Supervisor.Restart
import StreamHub.Supervisor.Backoff
import StreamHub.Config.Destinations
import StreamHub.Api.Patch
import StreamHub.Auth.Accounts
import StreamHub.Auth.PasswordChange
import StreamHub.Auth.Guessing
import StreamHub.Auth.ClientAddr
import StreamHub.Pipeline.Pids
import StreamHub.Channel.OutputLaunch
import StreamHub.Channel.PortAccounting
import StreamHub.Channel.OutputAlarms
import StreamHub.Notify.Accounting
import StreamHub.Streamflow.Isolation
import StreamHub.Streamflow.Leaks
import StreamHub.Streamflow.Schedule
import StreamHub.Yamljs.Load
import StreamHub.Auth.Audit
import StreamHub.Playback.Token
import StreamHub.Httpx.Routing
import StreamHub.Security.Egress
import StreamHub.Authz.Guard
import StreamHub.Apps.Lifecycle
import StreamHub.Apps.RawConfig
import StreamHub.Apps.Migrate
import StreamHub.Plugins.Worker
import StreamHub.Plugins.Versions
import StreamHub.Recording.Apart
import StreamHub.Recording.Resuming
import StreamHub.Recording.Stopping
import StreamHub.S3.Durability
import StreamHub.Streamflow.Guard
import StreamHub.Authn.Sessions
import StreamHub.Edge.Reconcile
import StreamHub.Edge.Gateway
import StreamHub.Edge.Workers
