import ContractMachine.Arithmetic.Basic
import ContractMachine.Arithmetic.SquareRoot
import ContractMachine.Bytes.Hex
import ContractMachine.Bytes.Integer
import ContractMachine.Contract
import ContractMachine.Contracts.AccessList
import ContractMachine.Contracts.Assembly
import ContractMachine.Contracts.Pool
import ContractMachine.DataType
import ContractMachine.Deployment
import ContractMachine.Digest.Blake3
import ContractMachine.Draft
import ContractMachine.ErrorKind
import ContractMachine.Identifier
import ContractMachine.Instruction
import ContractMachine.Machine.Error
import ContractMachine.Machine.RegisterFile
import ContractMachine.Machine.Run
import ContractMachine.Machine.Step
import ContractMachine.Opcode
import ContractMachine.OrderedMap
import ContractMachine.Proofs.Acceptance
import ContractMachine.Proofs.AccessList.Authority
import ContractMachine.Proofs.AccessList.Bodies
import ContractMachine.Proofs.AccessList.Holders
import ContractMachine.Proofs.AccessList.Registry
import ContractMachine.Proofs.Amounts
import ContractMachine.Proofs.Arithmetic
import ContractMachine.Proofs.Calls
import ContractMachine.Proofs.Commit
import ContractMachine.Proofs.Counters
import ContractMachine.Proofs.Effects
import ContractMachine.Proofs.Execution
import ContractMachine.Proofs.Failures
import ContractMachine.Proofs.Influence
import ContractMachine.Proofs.Magnitudes
import ContractMachine.Proofs.OrderedMap
import ContractMachine.Proofs.Pool.Authority
import ContractMachine.Proofs.Pool.Bodies
import ContractMachine.Proofs.Pool.Book
import ContractMachine.Proofs.Pool.Custody
import ContractMachine.Proofs.Pool.Isolation
import ContractMachine.Proofs.Pool.Liquidity
import ContractMachine.Proofs.Pool.LiquidityBodies
import ContractMachine.Proofs.Pool.Opening
import ContractMachine.Proofs.Pool.Prices
import ContractMachine.Proofs.Pool.RoundTrips
import ContractMachine.Proofs.Pool.Rules
import ContractMachine.Proofs.Pool.Runs
import ContractMachine.Proofs.Pool.Settlement
import ContractMachine.Proofs.Pool.ShareCover
import ContractMachine.Proofs.Pool.ShareValue
import ContractMachine.Proofs.Pool.Steps
import ContractMachine.Proofs.Pool.TradeBodies
import ContractMachine.Proofs.Pool.Trades
import ContractMachine.Proofs.State.Conservation
import ContractMachine.Proofs.State.Definitions
import ContractMachine.Proofs.State.Footprint
import ContractMachine.Proofs.State.Grants
import ContractMachine.Proofs.State.InPlace
import ContractMachine.Proofs.State.Numbering
import ContractMachine.Proofs.State.Operations
import ContractMachine.Proofs.Typing.Exactness
import ContractMachine.Proofs.Typing.Instructions
import ContractMachine.Proofs.Typing.Operands
import ContractMachine.Proofs.Typing.Soundness
import ContractMachine.Proofs.Typing.Storage
import ContractMachine.Proofs.Wire.Boundaries
import ContractMachine.Proofs.Wire.Canonical
import ContractMachine.Proofs.Wire.Integers
import ContractMachine.Proofs.Wire.Literals
import ContractMachine.Proofs.Wire.Readers
import ContractMachine.Proofs.Wire.Reload
import ContractMachine.Proofs.Wire.RoundTrip
import ContractMachine.SortKey
import ContractMachine.State.Store
import ContractMachine.State.TokenLedger
import ContractMachine.State.View
import ContractMachine.State.WriteSet
import ContractMachine.Text.Invisible
import ContractMachine.Text.Quoted
import ContractMachine.Text.Utf8
import ContractMachine.Validation.Bounds
import ContractMachine.Validation.Defect
import ContractMachine.Validation.Header
import ContractMachine.Validation.Limits
import ContractMachine.Validation.Names
import ContractMachine.Validation.Structure
import ContractMachine.Validation.Typing
import ContractMachine.Validation.Valid
import ContractMachine.Value
import ContractMachine.Wire.Contract
import ContractMachine.Wire.Error
import ContractMachine.Wire.Instruction
import ContractMachine.Wire.Reader
import ContractMachine.Wire.Value
import ContractMachine.Wire.Writer
