import Mathlib.Data.Option.Basic

/-!
# Errors of the stream layer

Go errors that the stream layer inspects: gRPC statuses, `io.EOF`, the two
context errors, named error values, and errors that wrap one of these.  The
stream layer only asks an error for its status code and whether it is
`io.EOF`.
-/

namespace Gorums
namespace Stream

/-- The gRPC status codes. -/
inductive Code
  | ok
  | canceled
  | unknown
  | invalidArgument
  | deadlineExceeded
  | notFound
  | alreadyExists
  | permissionDenied
  | resourceExhausted
  | failedPrecondition
  | aborted
  | outOfRange
  | unimplemented
  | internal
  | unavailable
  | dataLoss
  | unauthenticated
  deriving DecidableEq

/-- The name of a status code. -/
def Code.name : Code → String
  | .ok => "OK"
  | .canceled => "Canceled"
  | .unknown => "Unknown"
  | .invalidArgument => "InvalidArgument"
  | .deadlineExceeded => "DeadlineExceeded"
  | .notFound => "NotFound"
  | .alreadyExists => "AlreadyExists"
  | .permissionDenied => "PermissionDenied"
  | .resourceExhausted => "ResourceExhausted"
  | .failedPrecondition => "FailedPrecondition"
  | .aborted => "Aborted"
  | .outOfRange => "OutOfRange"
  | .unimplemented => "Unimplemented"
  | .internal => "Internal"
  | .unavailable => "Unavailable"
  | .dataLoss => "DataLoss"
  | .unauthenticated => "Unauthenticated"

/-- A non-nil Go error. -/
inductive Err
  | eof
  | contextCanceled
  | contextDeadlineExceeded
  | status (code : Code) (message : String)
  | named (message : String)
  | wrap (message : String) (cause : Err)
  deriving DecidableEq

namespace Err

/-- The text of an error. -/
def text : Err → String
  | .eof => "EOF"
  | .contextCanceled => "context canceled"
  | .contextDeadlineExceeded => "context deadline exceeded"
  | .status code message =>
      "rpc error: code = " ++ code.name ++ " desc = " ++ message
  | .named message => message
  | .wrap message cause => message ++ ": " ++ cause.text

/-- `errors.Is(err, io.EOF)`. -/
def isEOF : Err → Bool
  | .eof => true
  | .wrap _ cause => cause.isEOF
  | _ => false

/-- `status.Code` of a non-nil error: the code of the status it is or wraps,
and `Unknown` for any other error. -/
def code : Err → Code
  | .status code _ => code
  | .wrap _ cause => cause.code
  | _ => .unknown

end Err

/-- `status.Code`, which is `OK` for a nil error. -/
def statusCode : Option Err → Code
  | none => .ok
  | some err => err.code

/-- `ErrNodeClosed`. -/
def errNodeClosed : Err := .status .unavailable "node closed"

/-- `ErrStreamDown`. -/
def errStreamDown : Err := .status .unavailable "stream is down"

/-- `ErrSendQueueFull`. -/
def errSendQueueFull : Err := .status .unavailable "send queue full"

/-- Whether an error is due to resource exhaustion. -/
def isResourceExhausted (err : Option Err) : Bool :=
  statusCode err == .resourceExhausted

/-- Whether an error is due to a refused stream. -/
def isRefusal (err : Err) : Bool :=
  match err.code with
  | .unauthenticated | .permissionDenied | .invalidArgument
  | .unimplemented => true
  | _ => false

end Stream
end Gorums
