import CardTable.Basis.Outcome
import CardTable.Basis.Run
import CardTable.Basis.SafeInt
import CardTable.Basis.Rotation
import CardTable.Protocol
import CardTable.Ts.Types
import CardTable.Ts.Engine
import CardTable.Go.Types
import CardTable.Go.Engine
import CardTable.Table
import CardTable.Turns
import CardTable.Ts.Steps
import CardTable.Ts.Refine
import CardTable.Go.Refine
import CardTable.Ts.Ledger
import CardTable.Rounds
import CardTable.Settlement
import CardTable.Agreement
import CardTable.Go.Steps
import CardTable.Cards
import CardTable.Go.CryptoCards
import CardTable.Go.Session
import CardTable.Go.Replay
import CardTable.Go.Serialise
import CardTable.Go.Binding
import CardTable.Ts.CryptoCards
import CardTable.Ts.Verify
import CardTable.Go.Reach
import CardTable.Go.Gate
import CardTable.Transcript
import CardTable.Audit
import CardTable.Tools
import CardTable.Solvency
import CardTable.Go.Log
import CardTable.Go.Reopen
import CardTable.Go.Reveals
import CardTable.Go.Completion
import CardTable.Go.Opening
import CardTable.Closing
import CardTable.Fallback
import CardTable.Basis.Codec
import CardTable.Ts.Serialise
import CardTable.Chain
import CardTable.Encodable
import CardTable.Ts.Canonical
import CardTable.Basis.Sorting
import CardTable.Encoders
import CardTable.Go.Reorg
import CardTable.Basis.Selection
import CardTable.Conflict
import CardTable.Go.Mempool
import CardTable.Basis.Channel
import CardTable.Go.Hub
import CardTable.Go.Delivery
import CardTable.Go.Dispatch
import CardTable.Go.Handler
import CardTable.Basis.Stream
import CardTable.Go.WebSocket
import CardTable.Ts.RelayClient
import CardTable.Pace
import CardTable.Go.Concealed
import CardTable.Domains
import CardTable.Go.Faces
import CardTable.Openings
import CardTable.Wire
import CardTable.Go.Inbound
import CardTable.Basis.Walk
import CardTable.Transaction
import CardTable.Ts.TxBuilder
import CardTable.Go.TxBuilder
import CardTable.TxCodec
import CardTable.Sighash
import CardTable.Ts.Sighash
import CardTable.Go.Sighash
import CardTable.Signing
import CardTable.Basis.Wrap
import CardTable.Go.Amounts
import CardTable.Go.Preview
import CardTable.Ts.Preview
import CardTable.Roll
import CardTable.Ts.Roll
import CardTable.Go.Roll
import CardTable.Ts.Page
import CardTable.Ts.Sources
import CardTable.Network
import CardTable.Shown
import CardTable.Seating
import CardTable.Basis.Script
import CardTable.Eligibility
import CardTable.Ts.ScriptWriter
import CardTable.Ts.Templates
import CardTable.Templates
import CardTable.Bindings
import CardTable.Witnesses
import CardTable.Gates
import CardTable.Basis.Recognise
import CardTable.Basis.Unicode
import CardTable.Ts.Serialisation
import CardTable.Basis.Record
import CardTable.RuleSets
import CardTable.Basis.ScriptNum
import CardTable.Pushes
import CardTable.Basis.Der
import CardTable.Ts.Sign
import CardTable.Signatures
import CardTable.Basis.Bits32
import CardTable.Ts.Buffer
import CardTable.Buffers
import CardTable.Basis.Doubles
import CardTable.Basis.FisherYates
import CardTable.Go.Shuffle
import CardTable.Ts.Shuffle
import CardTable.Shuffle
import CardTable.Go.Spv
import CardTable.Go.Heights
import CardTable.Commitments
import CardTable.Go.Sealed
