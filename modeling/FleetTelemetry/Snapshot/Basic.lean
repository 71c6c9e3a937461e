import FleetTelemetry.Text.Columns
import FleetTelemetry.Text.Numeral

/-!
# Snapshots

What one node tells about itself at one moment: counters that only grow at the node, the depth
of its chain, the blocks that it is working on, and whether it holds the leadership token. One
table of fields gives the names, their order and the access to them; the log row and the series
row are read off it.
-/

namespace FleetTelemetry

open Text

/-- The figures of one node at one moment. A field that a node does not report is zero. -/
structure Snapshot where
  generatedTransactions : UInt64 := 0
  confirmedTransactions : UInt64 := 0
  chainDepth : UInt64 := 0
  token : Bool := false
  /-- The block being proposed, zero when none is. -/
  proposeBlock : UInt64 := 0
  signBlock : UInt64 := 0
  submitBlock : UInt64 := 0
  /-- Total latencies in milliseconds. -/
  proposeLatency : UInt64 := 0
  signLatency : UInt64 := 0
  submitLatency : UInt64 := 0
  gas : UInt64 := 0
  proposeNum : UInt64 := 0
  signNum : UInt64 := 0
  submitNum : UInt64 := 0
  deriving DecidableEq, Repr, Inhabited

/-- A snapshot and the node that sent it. -/
structure Report where
  node : String
  snapshot : Snapshot
  deriving DecidableEq, Repr

namespace Snapshot

inductive Field where
  | generatedTransactions
  | confirmedTransactions
  | chainDepth
  | token
  | proposeBlock
  | signBlock
  | submitBlock
  | proposeLatency
  | signLatency
  | submitLatency
  | gas
  | proposeNum
  | signNum
  | submitNum
  deriving DecidableEq, Repr

namespace Field

def all : List Field :=
  [generatedTransactions, confirmedTransactions, chainDepth, token, proposeBlock, signBlock,
   submitBlock, proposeLatency, signLatency, submitLatency, gas, proposeNum, signNum, submitNum]

def name : Field → String
  | generatedTransactions => "generated_transactions"
  | confirmedTransactions => "confirmed_transactions"
  | chainDepth => "chain_depth"
  | token => "token"
  | proposeBlock => "propose_block"
  | signBlock => "sign_block"
  | submitBlock => "submit_block"
  | proposeLatency => "propose_latency"
  | signLatency => "sign_latency"
  | submitLatency => "submit_latency"
  | gas => "gas"
  | proposeNum => "propose_num"
  | signNum => "sign_num"
  | submitNum => "submit_num"

def ofName? (s : String) : Option Field :=
  all.find? (·.name = s)

end Field

/-- A field's value as a number; the token counts as zero or one. -/
def get (s : Snapshot) : Field → UInt64
  | .generatedTransactions => s.generatedTransactions
  | .confirmedTransactions => s.confirmedTransactions
  | .chainDepth => s.chainDepth
  | .token => if s.token then 1 else 0
  | .proposeBlock => s.proposeBlock
  | .signBlock => s.signBlock
  | .submitBlock => s.submitBlock
  | .proposeLatency => s.proposeLatency
  | .signLatency => s.signLatency
  | .submitLatency => s.submitLatency
  | .gas => s.gas
  | .proposeNum => s.proposeNum
  | .signNum => s.signNum
  | .submitNum => s.submitNum

/-- A snapshot with one number changed. The token is no number and stays. -/
def setNumber (s : Snapshot) (value : UInt64) : Field → Snapshot
  | .generatedTransactions => { s with generatedTransactions := value }
  | .confirmedTransactions => { s with confirmedTransactions := value }
  | .chainDepth => { s with chainDepth := value }
  | .token => s
  | .proposeBlock => { s with proposeBlock := value }
  | .signBlock => { s with signBlock := value }
  | .submitBlock => { s with submitBlock := value }
  | .proposeLatency => { s with proposeLatency := value }
  | .signLatency => { s with signLatency := value }
  | .submitLatency => { s with submitLatency := value }
  | .gas => { s with gas := value }
  | .proposeNum => { s with proposeNum := value }
  | .signNum => { s with signNum := value }
  | .submitNum => { s with submitNum := value }

def seriesFields : List Field :=
  [.generatedTransactions, .confirmedTransactions, .chainDepth, .proposeLatency, .signLatency,
   .submitLatency, .gas, .proposeNum, .signNum, .submitNum]

def seriesValues (s : Snapshot) : List UInt64 :=
  seriesFields.map s.get

/-- The row of a sample in a node's log without its time: every field in order. -/
def sampleColumns (s : Snapshot) : List (List Char) :=
  Field.all.map fun field => decimal (s.get field).toNat

/-- The row of a sample in a node's log: the time and then every field in order. -/
def csvRow (s : Snapshot) (timestamp : UInt64) : String :=
  String.ofList (commaLine (decimal timestamp.toNat :: s.sampleColumns))

def sampleRow (s : Snapshot) : String :=
  String.ofList (commaLine s.sampleColumns)

end Snapshot

end FleetTelemetry
