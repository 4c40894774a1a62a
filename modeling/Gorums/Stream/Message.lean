import Gorums.Stream.Errors

/-!
# Messages and requests

The frames that travel on a stream and the requests that channels carry.  A
shared stream carries the requests of both sides; the high bit of a message ID
tells the two ID spaces apart.
-/

namespace Gorums
namespace Stream

/-- One entry of the client-generated metadata of a message. -/
structure MetadataEntry where
  /-- The metadata key. -/
  key : String
  /-- One of its values. -/
  value : String
  deriving DecidableEq

/-- The status of an invocation, as a response carries it. -/
structure Status where
  /-- The status code. -/
  code : Code
  /-- The error text. -/
  message : String
  deriving DecidableEq

/-- A frame on a stream. -/
structure Message where
  /-- The sequence number of the message. -/
  messageSeqNo : UInt64 := 0
  /-- The method to invoke on the server. -/
  method : String := ""
  /-- The status of an invocation, for responses. -/
  status : Option Status := none
  /-- The client-generated metadata. -/
  entry : List MetadataEntry := []
  /-- The serialized application message. -/
  payload : List UInt8 := []
  deriving DecidableEq

/-- The error in the status of a message; a status with code `OK` is no
error. -/
def Message.errorStatus (message : Message) : Option Err :=
  match message.status with
  | none => none
  | some status =>
      if status.code = .ok then none
      else some (.status status.code status.message)

/-- The frame that a server sends in place of the acceptance header. -/
def acceptFrame : Message := {}

/-- The high bit partitions the message IDs of a shared stream. -/
def serverSequenceNumberBitMask : UInt64 := (1 : UInt64) <<< 63

/-- Mark a sequence number as server-initiated. -/
def serverSequenceNumber (seqNo : UInt64) : UInt64 :=
  seqNo ||| serverSequenceNumberBitMask

/-- Whether a sequence number belongs to the server-initiated ID space. -/
def isServerSequenceNumber (seqNo : UInt64) : Bool :=
  seqNo &&& serverSequenceNumberBitMask != 0

/-- Identifies a node; a channel with ID 0 belongs to a peer without an ID. -/
abbrev ID := UInt32

/-- A message to send to a node, together with how to report its outcome. -/
structure Request where
  /-- Which request this is; two requests with equal fields stay apart. -/
  uid : Nat
  /-- The context of the call; context 0 is the channel's own. -/
  ctx : Nat
  /-- The message to send. -/
  msg : Message
  /-- Whether the call expects a stream of responses. -/
  streaming : Bool := false
  /-- Whether the call expects no response from the server. -/
  oneway : Bool := false
  /-- The response channel, or `none` for a nil channel. -/
  responseChan : Option Nat := none
  /-- For a handler's reply, the position of the request frame that it
  answers among the frames received on the stream. -/
  cause : Option Nat := none
  deriving DecidableEq

namespace Request

/-- Whether the request expects server responses. -/
def wantServerResponse (request : Request) : Bool :=
  request.responseChan.isSome && !request.oneway

/-- Whether the request expects a confirmation that it was sent. -/
def wantSendConfirmation (request : Request) : Bool :=
  request.oneway && request.responseChan.isSome

/-- The message ID of the request. -/
def msgID (request : Request) : UInt64 :=
  request.msg.messageSeqNo

end Request

/-- The response of a node: a value or an error. -/
structure NodeResponse (α : Type) where
  /-- The node that responds. -/
  nodeID : ID
  /-- Its value; the zero value if there is none. -/
  value : α
  /-- Its error, or `none` for a nil error. -/
  err : Option Err := none
  deriving DecidableEq

/-- The response type of the stream layer. -/
abbrev Response := NodeResponse (Option Message)

/-- The response that `Request.sendErrorResponse` sends. -/
def errorResponse (nodeID : ID) (err : Err) : Response :=
  { nodeID := nodeID, value := none, err := some err }

end Stream
end Gorums
