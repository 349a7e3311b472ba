import EdgeFrame.Api.Anchors
import EdgeFrame.Api.Crops
import EdgeFrame.Api.Decoding
import EdgeFrame.Api.FaceQuality
import EdgeFrame.Api.FarApart
import EdgeFrame.Api.Inference
import EdgeFrame.Api.Selection
import EdgeFrame.Api.SetJson
import EdgeFrame.Api.Suppression
import EdgeFrame.Api.Transform
import EdgeFrame.Assign.Passes
import EdgeFrame.Capture.Descriptors
import EdgeFrame.Capture.Discovery
import EdgeFrame.Capture.Resolution
import EdgeFrame.Capture.UsbLoader
import EdgeFrame.Config.CompanySn
import EdgeFrame.Config.SerialFiles
import EdgeFrame.Config.Split
import EdgeFrame.Flow.Accounts
import EdgeFrame.Flow.Discipline
import EdgeFrame.Flow.Durable
import EdgeFrame.Flow.HandOver
import EdgeFrame.Flow.Memory
import EdgeFrame.Flow.Resend
import EdgeFrame.Metric.Accesses
import EdgeFrame.Metric.Kept
import EdgeFrame.Monitor.Blocked
import EdgeFrame.Monitor.Cadence
import EdgeFrame.Monitor.Events
import EdgeFrame.Monitor.Shown
import EdgeFrame.Monitor.Timers
import EdgeFrame.Pipeline.ObjectManager
import EdgeFrame.Pipeline.Sharing
import EdgeFrame.Running.Shutdown
import EdgeFrame.Running.Videos
import EdgeFrame.Running.Vision
import EdgeFrame.Sort.Removal
import EdgeFrame.Sort.Reports
import EdgeFrame.Track.Aging
import EdgeFrame.Track.Costs
import EdgeFrame.Track.Erasures
import EdgeFrame.Track.Leaves
import EdgeFrame.Track.Lives
import EdgeFrame.Track.Pairing
import EdgeFrame.Track.Residence
import EdgeFrame.Track.Trajectory
