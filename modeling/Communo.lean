import Communo.Lib.CheckedMemory
import Communo.Lib.Runs
import Communo.Lib.Records
import Communo.Lib.KeyedList
import Communo.Lib.Formats
import Communo.Lib.GroupLog
import Communo.Lib.Logs
import Communo.Lib.Numerals
import Communo.Lib.PrefixCode
import Communo.Lib.Sweep
import Communo.Lib.Transducers
import Communo.Lib.Links
import Communo.Protocol
import Communo.NumParser
import Communo.Literals
import Communo.IntegerLiterals
import Communo.FloatLiterals
import Communo.Chat
import Communo.Session
import Communo.Handlers
import Communo.MainLoop
import Communo.Logging
import Communo.Client
import Communo.ListDecoding
import Communo.Cli
import Communo.CommandMatching
import Communo.Dispatch
import Communo.Addition
import Communo.AdditionFormat
import Communo.Faults
import Communo.PacketLocality
import Communo.Survival
import Communo.LogRecords
import Communo.Writes
import Communo.ReplyDecoding
import Communo.RoomTable
import Communo.RoomPassword
import Communo.ClientList
import Communo.SessionTable
import Communo.LiveSessions
import Communo.Framing
import Communo.StateFrame
import Communo.RoomMessages
import Communo.PrivateMessages
import Communo.Addressing
import Communo.Resources
import Communo.ReadPass
import Communo.SelectSet
import Communo.Handles
import Communo.Descriptors
import Communo.ReplySizes
import Communo.ChatService
import Communo.Refinement
import Communo.ServiceRuns
import Communo.ServiceLaws
import Communo.ServiceHistory
import Communo.Conversations
import Communo.Network
import Communo.NetworkLaws
import Communo.Privacy
import Communo.RoomListing
import Communo.Leaks
import Communo.Shutdown
import Communo.Startup
import Communo.Terminals
import Communo.ClientProcess
