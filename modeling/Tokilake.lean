import Tokilake.Auth.UserToken
import Tokilake.Billing.BatchInsert
import Tokilake.Billing.Flush
import Tokilake.Billing.Payment
import Tokilake.Billing.PreConsume
import Tokilake.Billing.PriceTable
import Tokilake.Billing.Promotion
import Tokilake.Billing.Redeem
import Tokilake.Core.ControlLoop
import Tokilake.Core.InFlight
import Tokilake.Core.Writers
import Tokilake.Core.WsConn
import Tokilake.Gateway.Mirror
import Tokilake.Gateway.Publish
import Tokilake.Gateway.Registration
import Tokilake.Gateway.Release
import Tokilake.Gateway.WorkerModels
import Tokilake.Gateway.WsStream
import Tokilake.Hub.Atomic
import Tokilake.Hub.GroupSafety
import Tokilake.Hub.ManualDisable
import Tokilake.Hub.ModelList
import Tokilake.Hub.Ownership
import Tokilake.Limit.Reload
import Tokilake.Limit.Skew
import Tokilake.Limit.Window
import Tokilake.PrivateGroup.Invite
import Tokilake.PrivateGroup.Owner
import Tokilake.PrivateGroup.Reference
import Tokilake.Relay.CachedQuota
import Tokilake.Relay.Freeze
import Tokilake.Relay.Midjourney
import Tokilake.Relay.PollRow
import Tokilake.Relay.Realtime
import Tokilake.Relay.Refund
import Tokilake.Relay.Round
import Tokilake.Relay.StreamReader
import Tokilake.Relay.TaskSubmit
import Tokilake.Relay.Wakeup
import Tokilake.Responses.Grammar
import Tokilake.Responses.Reassembly
import Tokilake.Routing.ModelDelete
import Tokilake.Routing.Reload
import Tokilake.Smux.Blocking
import Tokilake.Smux.Delivery
import Tokilake.Smux.Faithful
import Tokilake.Smux.HalfClosed
import Tokilake.Smux.Shutdown
import Tokilake.Smux.Transport
import Tokilake.Tunnel.Codec
import Tokilake.Tunnel.Request
import Tokilake.Tunnel.Response
import Tokilake.Tunnel.Tracking
import Tokilake.Worker.ComfyUI
import Tokilake.Worker.ControlClient
import Tokilake.Worker.Headers
import Tokilake.Worker.HttpResponse
import Tokilake.Worker.KeyRotation
import Tokilake.Worker.TargetPath
import Tokilake.Worker.VideoPayload
