import LmTransport.Proofs.Descriptors
import LmTransport.Proofs.ConnectResult
import LmTransport.Lib.Fallback
import LmTransport.Proofs.AddressFallback
import LmTransport.Proofs.Watches
import LmTransport.Proofs.CloseFinal
import LmTransport.Proofs.ClosedOnce
import LmTransport.Proofs.SharedAddress
import LmTransport.Proofs.GnutlsSteps
import LmTransport.Proofs.Handshake
import LmTransport.Proofs.Sessions
import LmTransport.Lib.Dns
import LmTransport.Proofs.SrvChoice
import LmTransport.Ref.Asyncns
import LmTransport.Ref.AsyncnsResolver
import LmTransport.Ref.BlockingResolver
import LmTransport.Lib.OneShot
import LmTransport.Proofs.LookupSteps
import LmTransport.Proofs.LookupOnce
import LmTransport.Proofs.LookupResult
import LmTransport.Proofs.ServiceAgreement
import LmTransport.Proofs.LookupLive
import LmTransport.Proofs.SocketGone
import LmTransport.Proofs.NoPlaintext
import LmTransport.Lib.Broadcast
import LmTransport.Proofs.Forwarding
import LmTransport.Proofs.ReadCount
import LmTransport.Proofs.WriteContract
import LmTransport.Lib.Refcount
import LmTransport.Ref.AddressOwners
import LmTransport.Proofs.AddressCounts
import LmTransport.Proofs.AddressOwnership
import LmTransport.Proofs.AnswerBounds
import LmTransport.Proofs.BrokenTargets
import LmTransport.Proofs.Messages
import LmTransport.Proofs.SrvComplete
import LmTransport.Proofs.ForeignRecords
import LmTransport.Proofs.WriteErrors
import LmTransport.Proofs.ConnectRetry
import LmTransport.Proofs.CertificateDecision
import LmTransport.Proofs.Fingerprint
import LmTransport.Proofs.SrvDoneMemory
import LmTransport.Ref.MainContexts
import LmTransport.Proofs.CallersContext
import LmTransport.Lib.LinkedList
import LmTransport.Ref.AddrinfoNodes
import LmTransport.Proofs.ResultLists
import LmTransport.Lib.Pipe
import LmTransport.Ref.OldSocket
import LmTransport.Proofs.OutputBuffer
import LmTransport.Lib.Interaction
import LmTransport.Ref.TlsIo
import LmTransport.Proofs.TlsReturns
import LmTransport.Lib.Layout
import LmTransport.Ref.AsyncnsWire
import LmTransport.Ref.AsyncnsMessages
import LmTransport.Lib.DoublyLinked
import LmTransport.Lib.Simulation
import LmTransport.Lib.SlotTable
import LmTransport.Ref.AsyncnsQueries
import LmTransport.Proofs.AsyncnsTable
import LmTransport.Proofs.AsyncnsRequests
import LmTransport.Proofs.AsyncnsReplies
import LmTransport.Proofs.AsyncnsCalls
import LmTransport.Proofs.AsyncnsFlight
import LmTransport.Proofs.AsyncnsSafety
import LmTransport.Proofs.AsyncnsContext
import LmTransport.Proofs.AsyncnsDelivery
import LmTransport.Lib.Quiescence
import LmTransport.Proofs.AsyncnsChanges
import LmTransport.Proofs.AsyncnsDead
import LmTransport.Proofs.AsyncnsLive
import LmTransport.Proofs.AsyncnsStale
import LmTransport.Proofs.AsyncnsFull
import LmTransport.Proofs.AsyncnsOneQuery
import LmTransport.Lib.Decimal
import LmTransport.Ref.AsyncnsWorker
import LmTransport.Proofs.AsyncnsWorker
import LmTransport.Proofs.AsyncnsCutOff
