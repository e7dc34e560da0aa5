import DroneServer.Amf0.Fields
import DroneServer.Amf0.Hostile
import DroneServer.Amf0.Settled
import DroneServer.Amf0.WellFormed
import DroneServer.AsyncHandler
import DroneServer.Detector
import DroneServer.Flushing
import DroneServer.Media.Recorder
import DroneServer.Rtmp.Abort
import DroneServer.Rtmp.Accounting
import DroneServer.Rtmp.Acknowledging
import DroneServer.Rtmp.ChunkSize
import DroneServer.Rtmp.Commands
import DroneServer.Rtmp.Delivery
import DroneServer.Rtmp.Demuxer
import DroneServer.Rtmp.Digest
import DroneServer.Rtmp.Drift
import DroneServer.Rtmp.DroneUrl
import DroneServer.Rtmp.Extended
import DroneServer.Rtmp.ExtendedMode
import DroneServer.Rtmp.Gop
import DroneServer.Rtmp.Length
import DroneServer.Rtmp.MediaSafety
import DroneServer.Rtmp.Meeting
import DroneServer.Rtmp.ParseLoop
import DroneServer.Rtmp.Publication
import DroneServer.Rtmp.Reads
import DroneServer.Rtmp.Reassembly
import DroneServer.Rtmp.Received
import DroneServer.Rtmp.Reply
import DroneServer.Rtmp.Stranded
import DroneServer.Rtmp.StreamAge
import DroneServer.Rtmp.VideoTag
import DroneServer.Rtmp.Viewer
import DroneServer.Rtmp.Writing
import DroneServer.TcpSession
import DroneServer.Websocket.Attachment
import DroneServer.Websocket.Broadcast
import DroneServer.Websocket.Repeats
import DroneServer.Websocket.Roster
import DroneServer.Websocket.Statement
import DroneServer.Websocket.Strangers
