import ReactorWebrtc.Chunking.Transfer
import ReactorWebrtc.Chunking.Grammar
import ReactorWebrtc.Chunking.Times
import ReactorWebrtc.Chunking.Checked
import ReactorWebrtc.Lib.Machine
import ReactorWebrtc.Lib.Lock
import ReactorWebrtc.Lib.Regroup
import ReactorWebrtc.Negotiation.Apply
import ReactorWebrtc.Negotiation.Credentials
import ReactorWebrtc.Negotiation.Codecs
import ReactorWebrtc.Negotiation.Regrouping
import ReactorWebrtc.Channel.Twin
import ReactorWebrtc.Channel.Buffer
import ReactorWebrtc.Channel.Drain
import ReactorWebrtc.Channel.Receive
import ReactorWebrtc.Channel.Limits
import ReactorWebrtc.Channel.Notices
import ReactorWebrtc.Channel.Held
import ReactorWebrtc.Channel.LowNotice
import ReactorWebrtc.Metadata.Dropped
import ReactorWebrtc.Metadata.Received
import ReactorWebrtc.Metadata.Gate
import ReactorWebrtc.Metadata.Mixed
import ReactorWebrtc.Metadata.SessionLevel
import ReactorWebrtc.Metadata.Composition
import ReactorWebrtc.Metadata.SlotRegistry
import ReactorWebrtc.Metadata.TrackRegistries
import ReactorWebrtc.Metadata.Attach
import ReactorWebrtc.Metadata.SetTrack
import ReactorWebrtc.Metadata.Installed
import ReactorWebrtc.Metadata.Trailer
import ReactorWebrtc.Media.CaptureTime
import ReactorWebrtc.Media.Playout
import ReactorWebrtc.Media.PreEncoded
import ReactorWebrtc.Encoders.Accounting
import ReactorWebrtc.Encoders.Recreation
import ReactorWebrtc.Encoders.CodecCache
import ReactorWebrtc.Encoders.RegistryCalls
import ReactorWebrtc.Sockets.SendBatch
import ReactorWebrtc.Stats.TimingFrame
import ReactorWebrtc.Stats.NamePrefix
import ReactorWebrtc.Connection.Configuration
import ReactorWebrtc.Connection.Calls
import ReactorWebrtc.Connection.Created
import ReactorWebrtc.Connection.FactoryOptions
import ReactorWebrtc.Stats.Collect
import ReactorWebrtc.Media.Sinks
import ReactorWebrtc.Media.SinkClosures
import ReactorWebrtc.Channel.Release
import ReactorWebrtc.Metadata.NativeTransform
import ReactorWebrtc.Metadata.TransformedFrames
import ReactorWebrtc.Metadata.TransformerQueue
import ReactorWebrtc.Encoders.OpenH264
import ReactorWebrtc.Connection.Teardown
import ReactorWebrtc.Interface.Mirrors
import ReactorWebrtc.Stats.Report
import ReactorWebrtc.Encoders.CustomEncoder
