import FileServer.Lib.Layout
import FileServer.Lib.CString
import FileServer.Lib.Table
import FileServer.Lib.Run
import FileServer.Lib.Script
import FileServer.Lib.RecordLock
import FileServer.Lib.Serial
import FileServer.Lib.Channel
import FileServer.Lib.CopyLoop
import FileServer.Model.Utility
import FileServer.Model.Net
import FileServer.Model.Registry
import FileServer.Model.ClientSocket
import FileServer.Model.ClientConnection
import FileServer.Model.FileAccess
import FileServer.Model.Command
import FileServer.Model.Handlers
import FileServer.Model.HandleClient
import FileServer.Model.Worker
import FileServer.Model.Helper
import FileServer.Model.SystemCalls
import FileServer.Model.HelperHandlers
import FileServer.Model.Accounts
import FileServer.Model.DataTransfer
import FileServer.Spec.TransferLedger
import FileServer.Verif.ClientSocket
import FileServer.Verif.Framing
import FileServer.Verif.Serializable
import FileServer.Verif.Registry
import FileServer.Verif.Transfers
import FileServer.Verif.Tokenize
import FileServer.Verif.Handlers
import FileServer.Verif.SessionGate
import FileServer.Verif.PayloadBounds
import FileServer.Verif.WriteCommand
import FileServer.Verif.Isolation
import FileServer.Verif.HelperCodec
import FileServer.Verif.Accounts
import FileServer.Verif.HelperFraming
import FileServer.Verif.DataTransfer
import FileServer.Verif.RoundTrip
import FileServer.Lib.OwnedTable
import FileServer.Model.HandlerProcesses
import FileServer.Verif.HandlerProcesses
import FileServer.Verif.TransferSlots
import FileServer.Model.HandlerAnswers
import FileServer.Verif.Login
import FileServer.Verif.TransferCommands
import FileServer.Lib.Paths
import FileServer.Verif.WakeUps
import FileServer.Verif.TransferPaths
import FileServer.Verif.TransferSources
import FileServer.Lib.FileTree
import FileServer.Model.FileSystem
import FileServer.Verif.TransferCopies
import FileServer.Verif.CleanExits
import FileServer.Verif.Rejections
import FileServer.Verif.Writes
import FileServer.Verif.Reads
import FileServer.Model.Permissions
import FileServer.Verif.Permissions
import FileServer.Verif.Creates
import FileServer.Verif.Owners
import FileServer.Lib.Interleaving
import FileServer.Model.HelperProcesses
import FileServer.Verif.Moves
import FileServer.Verif.MoveProcesses
import FileServer.Verif.UserCreation
import FileServer.Lib.Scanf
import FileServer.Verif.DataPorts
import FileServer.Lib.Numerals
import FileServer.Verif.Numerals
import FileServer.Verif.Listings
import FileServer.Lib.Condition
import FileServer.Model.ClientThreads
import FileServer.Verif.ClientThreads
import FileServer.Lib.Level
import FileServer.Verif.ClientRest
import FileServer.Lib.Budget
import FileServer.Verif.ClientExit
import FileServer.Verif.Replies
import FileServer.Model.Dialogue
import FileServer.Verif.Dialogue
import FileServer.Verif.Directories
import FileServer.Model.FileRun
import FileServer.Verif.Workdirs
import FileServer.Verif.Roots
import FileServer.Lib.Semaphore
import FileServer.Lib.RowLoop
import FileServer.Model.RegistryLock
import FileServer.Verif.RegistryLock
import FileServer.Model.Shutdown
import FileServer.Verif.Shutdown
