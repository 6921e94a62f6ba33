import Yuviz.System
import Yuviz.Log
import Yuviz.Gateway.CallFSM
import Yuviz.Gateway.CallFSM.Timers
import Yuviz.Gateway.CallFSM.Handlers
import Yuviz.Gateway.CallFSM.ControlQueue
import Yuviz.Gateway.Telephony.Coordinators
import Yuviz.Gateway.Telephony.Completion
import Yuviz.Gateway.Telephony.Hold
import Yuviz.Gateway.CallFSM.Outline
import Yuviz.Gateway.CallSession
import Yuviz.Gateway.CallSession.Events
import Yuviz.Gateway.CallSession.Threads
import Yuviz.Gateway.CallSession.Items
import Yuviz.Gateway.CallSession.BargeIn
import Yuviz.Gateway.CallSession.Replay
import Yuviz.Gateway.CallSession.EndCall
import Yuviz.Conversation.TransferEngine
import Yuviz.Conversation.Pipeline
import Yuviz.Conversation.FSM
import Yuviz.Conversation.Session
import Yuviz.Conversation.Servicer
import Yuviz.Conversation.Servicer.Deferral
import Yuviz.Conversation.Servicer.Framing
import Yuviz.Conversation.Pipeline.Turn
import Yuviz.Conversation.Pipeline.Accepted
import Yuviz.Conversation.Service
import Yuviz.Conversation.Service.Transfers
import Yuviz.Gateway.Media.Playback
import Yuviz.Gateway.CallSession.Order
import Yuviz.Common.SPSCQueue
import Yuviz.Gateway.Transport.GrpcConversationTransport
import Yuviz.Gateway.CallSession.Notifications
import Yuviz.Gateway.CallSession.SendQueue
import Yuviz.Gateway.CallSession.Stale
import Yuviz.Call
import Yuviz.Call.Expects
import Yuviz.Call.Answers
import Yuviz.Call.Agreement
import Yuviz.Gateway.Telephony.EslFraming
import Yuviz.Gateway.Telephony.EslClient
import Yuviz.Conversation.Directives
import Yuviz.Conversation.Directives.Streaming
import Yuviz.Python.Json
import Yuviz.Walk
import Yuviz.Fixpoint
import Yuviz.Config.Templates
import Yuviz.Config.Workflow
import Yuviz.Config.Workflow.Valid
import Yuviz.Config.Workflow.Variables
import Yuviz.Conversation.Workflow.Runner
import Yuviz.Conversation.Workflow.Navigation
import Yuviz.Conversation.Workflow.Rendering
import Yuviz.Python.JsonEquality
import Yuviz.Config.Workflow.Equivalent
import Yuviz.Config.Workflow.Warnings
import Yuviz.Conversation.Workflow.Extractor
import Yuviz.Conversation.Messages
import Yuviz.Conversation.Messages.Turn
import Yuviz.Conversation.Messages.WellFormed
import Yuviz.Conversation.Messages.Rollback
import Yuviz.Conversation.Messages.Augmentation
import Yuviz.Python.Regex
import Yuviz.Conversation.Tools.Middleware
import Yuviz.Conversation.Tools.Execution
import Yuviz.Conversation.Tools.DateSanity
import Yuviz.Conversation.Tools.Orchestrator
import Yuviz.Conversation.Pipeline.Streaming
import Yuviz.Python.Csv
import Yuviz.Campaigns.Originate
import Yuviz.Campaigns.CampaignContacts
import Yuviz.Distinct
import Yuviz.Campaigns.Worker
import Yuviz.Campaigns.Worker.Steps
import Yuviz.Campaigns.Worker.Attempts
import Yuviz.Campaigns.Worker.InTurn
import Yuviz.Campaigns.Worker.Held
import Yuviz.Campaigns.Worker.Accounting
import Yuviz.Campaigns.Worker.Stranded
import Yuviz.Circular
import Yuviz.Gateway.Utils.RingBuffer
import Yuviz.Gateway.Utils.RingBuffer.Refines
import Yuviz.Gateway.Transport.WriterLoop
import Yuviz.Gateway.Timer.TimerService
import Yuviz.Vobiz.Bridge
import Yuviz.Vobiz.Bridge.Interruptible
import Yuviz.Vobiz.Bridge.Cancelled
import Yuviz.Vobiz.Bridge.Outbound
import Yuviz.CacheAside
import Yuviz.Config.PhoneNumbers
import Yuviz.Config.Invites
import Yuviz.Config.Invites.Calls
import Yuviz.Config.Invites.Frame
import Yuviz.Config.Invites.Lifecycle
import Yuviz.Config.Invites.Containment
import Yuviz.Conversation.TranscriptBuilder
import Yuviz.Conversation.SessionFinalizer.Once
import Yuviz.Conversation.TokenStream
import Yuviz.Debounce
import Yuviz.Vad.EnergyVad
import Yuviz.Vad.SileroVad
import Yuviz.Knowledge.Chunking
import Yuviz.Knowledge.IngestionWorker
import Yuviz.Conversation.AiProviderManager
import Yuviz.CondVar
import Yuviz.Gateway.Utils.ThreadPool
import Yuviz.Gateway.Dispatcher
import Yuviz.Gateway.Timer.TimerLoop
import Yuviz.Gateway.Shutdown
import Yuviz.Gateway.Media.AudioWorkerPool
import Yuviz.Gateway.Media.AudioWorkerPool.HandBack
import Yuviz.Gateway.WebSocket.WebSocketConnection
import Yuviz.Gateway.Core.Application
import Yuviz.Gateway.CallFSM.Closing
import Yuviz.Gateway.CallSession.Destruction
import Yuviz.Gateway.CallSession.Destruction.Tracked
import Yuviz.Gateway.CallSession.Destruction.Released
import Yuviz.Vobiz.Bridge.Goodbye
import Yuviz.Gateway.Dispatcher.Delivery
import Yuviz.Config.Deps
import Yuviz.Config.ProviderConfigs
import Yuviz.Conversation.Tools.Localtime
import Yuviz.Conversation.Tools.Providers.CalCom
import Yuviz.Conversation.Tools.Executors.Appointments
import Yuviz.Conversation.Tools.Executors.Booking
import Yuviz.Campaigns.Worker.DialGuard
import Yuviz.TopK
import Yuviz.Knowledge.Retrieval
import Yuviz.Config.Users
import Yuviz.Config.ProviderAssignments
import Yuviz.Conversation.Tools.PolicyResolver
import Yuviz.Conversation.Tools.Confinement
import Yuviz.Table
import Yuviz.ControlApi
import Yuviz.ControlApi.Isolation
import Yuviz.ControlApi.Tenants
import Yuviz.Gateway.Media.AudioFrame
import Yuviz.Vad.Detector
import Yuviz.Gateway.Media.MediaSession
import Yuviz.Vobiz.Bridge.SpeechEnded
import Yuviz.Vad.Durations
import Yuviz.Gateway.Media.Backlog
import Yuviz.Gateway.CallSession.TtsChunk
import Yuviz.Config.Templates.Substitution
import Yuviz.Conversation.Providers.OpenAI
import Yuviz.Conversation.Providers
import Yuviz.Conversation.Providers.Gemini
import Yuviz.Conversation.Providers.Anthropic
import Yuviz.Conversation.Providers.Instructions
import Yuviz.Conversation.Providers.Acceptable
import Yuviz.Conversation.Sentences
import Yuviz.Conversation.Sentences.Spoken
import Yuviz.Conversation.Sentences.Tokenisation
import Yuviz.Config.Templates.Reads
import Yuviz.Conversation.Workflow.Abandon
import Yuviz.Knowledge.Coverage
import Yuviz.Config.RateLimit.Exact
import Yuviz.Conversation.ToolLatency.Isolation
import Yuviz.Conversation.Tools.Calendar
import Yuviz.Conversation.Tools.IsoFormat
import Yuviz.Conversation.Tools.DateGuard
import Yuviz.LastWrite
import Yuviz.Conversation.Workflow.Extraction
import Yuviz.Conversation.Messages.Summary
import Yuviz.Python.StreamReader
import Yuviz.Python.Text
import Yuviz.Campaigns.JobEvents
import Yuviz.Campaigns.JobEvents.Body
import Yuviz.Campaigns.JobEvents.Delivery
import Yuviz.Semaphore
import Yuviz.Tally
import Yuviz.Gateway.Config.RedisClient
import Yuviz.Gateway.Media.PlaybackDrain
import Yuviz.Config.Workflows
import Yuviz.Config.Workflows.Mirror
import Yuviz.Config.Workflows.Published
import Yuviz.Config.Workflows.Fence
import Yuviz.Conversation.EventBus
import Yuviz.Webcall.Sessions
import Yuviz.Did.Numbers
import Yuviz.Conversation.TranscriptBuilder.Nodes
import Yuviz.EventSocket
