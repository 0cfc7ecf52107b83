import TwoWayRadio.AllCall
import TwoWayRadio.AudioEngine
import TwoWayRadio.AudioFanOut
import TwoWayRadio.AudioFormat
import TwoWayRadio.BoundedChannel
import TwoWayRadio.CappedLog
import TwoWayRadio.CatchUp
import TwoWayRadio.Channel
import TwoWayRadio.ChannelAgreement
import TwoWayRadio.ChannelBoard
import TwoWayRadio.ChannelDirectory
import TwoWayRadio.ChannelFloor
import TwoWayRadio.ChannelScanner
import TwoWayRadio.ChannelTOT
import TwoWayRadio.ChatHandlers
import TwoWayRadio.ChatTruncation
import TwoWayRadio.ChatWindow
import TwoWayRadio.Client
import TwoWayRadio.ClientQueues
import TwoWayRadio.CloseSafety
import TwoWayRadio.Config
import TwoWayRadio.CriticalSections
import TwoWayRadio.Filepath
import TwoWayRadio.FloorAgreement
import TwoWayRadio.FloorAnswers
import TwoWayRadio.FloorDeadline
import TwoWayRadio.FloorHistory
import TwoWayRadio.FloorNames
import TwoWayRadio.FloorProtocol
import TwoWayRadio.FrameTypes
import TwoWayRadio.HalfDuplex
import TwoWayRadio.Hub
import TwoWayRadio.HubCalls
import TwoWayRadio.HubChannels
import TwoWayRadio.HubDeliveries
import TwoWayRadio.HubEffects
import TwoWayRadio.HubExec
import TwoWayRadio.HubFloor
import TwoWayRadio.HubHandlers
import TwoWayRadio.HubIsolation
import TwoWayRadio.HubLocks
import TwoWayRadio.HubMembership
import TwoWayRadio.HubRecorder
import TwoWayRadio.HubRefinement
import TwoWayRadio.HubRequests
import TwoWayRadio.InstantReplay
import TwoWayRadio.Interleaving
import TwoWayRadio.LexicalPaths
import TwoWayRadio.ListenerView
import TwoWayRadio.NewestMessage
import TwoWayRadio.OwnChannel
import TwoWayRadio.Packetizer
import TwoWayRadio.PageKeying
import TwoWayRadio.PlaybackSchedule
import TwoWayRadio.PrivateChannels
import TwoWayRadio.PrivateEntry
import TwoWayRadio.Progress
import TwoWayRadio.Protocol
import TwoWayRadio.RWMutex
import TwoWayRadio.RadioClient
import TwoWayRadio.RadioHotMic
import TwoWayRadio.RadioVideo
import TwoWayRadio.Recorder
import TwoWayRadio.RecordingArchive
import TwoWayRadio.RecordingAttribution
import TwoWayRadio.RecordingCap
import TwoWayRadio.RecordingOrder
import TwoWayRadio.RecordingPaths
import TwoWayRadio.Rekeying
import TwoWayRadio.Resampler
import TwoWayRadio.Riff
import TwoWayRadio.RoIPPeers
import TwoWayRadio.RoIPServer
import TwoWayRadio.Rooms
import TwoWayRadio.Roster
import TwoWayRadio.Runs
import TwoWayRadio.SampleAlignment
import TwoWayRadio.SendQueue
import TwoWayRadio.SenderIntegrity
import TwoWayRadio.SerialHub
import TwoWayRadio.SerialRecording
import TwoWayRadio.Server
import TwoWayRadio.Session
import TwoWayRadio.SlidingWindow
import TwoWayRadio.SwitchEffects
import TwoWayRadio.Teardown
import TwoWayRadio.TrafficCounters
import TwoWayRadio.Transcript
import TwoWayRadio.UnlistedCalls
import TwoWayRadio.Uploads
import TwoWayRadio.Utf8
import TwoWayRadio.VideoAnnouncements
import TwoWayRadio.VideoConnections
import TwoWayRadio.VideoHub
import TwoWayRadio.VideoOwners
import TwoWayRadio.VideoRoles
import TwoWayRadio.VideoRoom
import TwoWayRadio.VideoSlot
import TwoWayRadio.VideoTieBreak
import TwoWayRadio.VoiceChannels
import TwoWayRadio.VoicePath
import TwoWayRadio.VoiceTranscript
import TwoWayRadio.WavFormat
import TwoWayRadio.WritePump
