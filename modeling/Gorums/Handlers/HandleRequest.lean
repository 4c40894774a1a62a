import Gorums.Stream.Local
import Gorums.Stream.Replies

/-!
# The server's request handler

`HandleRequest` decodes a request, runs the handler registered for its method
and sends a response for each message that the handler sends.  An error that
the handler returns becomes a response if the handler has sent nothing.  A
server handles the requests of streams and, for its own node, those of a local
channel.
-/

namespace Gorums
namespace Handlers

open Gorums.Stream

/-- What a handler does with a request: the messages that it passes to `send`,
in order, where `none` is a nil message, and the error that it returns. -/
structure HandlerRun (π : Type) where
  /-- The messages. -/
  sends : List (Option π)
  /-- The error, or `none` for a nil error. -/
  err : Option Err := none

/-- A registered handler, with the decoded request and its envelope. -/
abbrev Handler (π : Type) := π → Message → HandlerRun π

/-- A server of application messages `π`. -/
structure Server (π : Type) where
  /-- The handlers by method. -/
  handlers : String → Option (Handler π)
  /-- `impl.UnmarshalRequest`. -/
  unmarshalRequest : Message → Except Err π
  /-- `proto.Marshal`. -/
  marshal : π → Except Err (List UInt8)

/-- The status of an error: `status.FromError`, and code `Unknown` for an error
that has no status. -/
def statusOf : Err → Status
  | .status code message => ⟨code, message⟩
  | err => ⟨err.code, err.text⟩

namespace Server

variable {π : Type} (server : Server π)

/-- `newResponse`: the response envelope to a request. -/
def newResponse (request : Message) (resp : Option π) (err : Option Err) :
    Message :=
  let out : Message :=
    { messageSeqNo := request.messageSeqNo, method := request.method }
  match err, resp with
  | some err, _ => { out with status := some (statusOf err) }
  | none, none => out
  | none, some resp =>
      match server.marshal resp with
      | .ok payload => { out with payload := payload }
      | .error err => { out with status := some (statusOf err) }

/-- `HandleRequest`: the messages that it passes to `send`. -/
def handleRequest : RequestHandler := fun request =>
  match server.handlers request.method with
  | none =>
      [server.newResponse request none (some (.status .unimplemented
        ("no handler registered for method " ++ request.method)))]
  | some handler =>
      match server.unmarshalRequest request with
      | .error err => [server.newResponse request none (some err)]
      | .ok msg =>
          (handler msg request).sends.map
              (fun resp => server.newResponse request resp none) ++
            match (handler msg request).err with
            | none => []
            | some err =>
                -- An error returned after a response is discarded.
                if (handler msg request).sends.isEmpty then
                  [server.newResponse request none (some err)]
                else []

/-- The handler registered for a request sends at most one message. -/
def SendsOnce (request : Message) : Prop :=
  ∀ handler msg, server.handlers request.method = some handler →
    server.unmarshalRequest request = .ok msg →
    (handler msg request).sends.length ≤ 1

/-- A handler that sends at most one message leads to at most one response. -/
theorem length_handleRequest {request : Message}
    (once : server.SendsOnce request) :
    (server.handleRequest request).length ≤ 1 := by
  unfold handleRequest
  split
  · simp
  · rename_i handler registered
    split
    · simp
    · rename_i msg decoded
      have bound := once handler msg registered decoded
      cases sends : (handler msg request).sends with
      | nil => cases (handler msg request).err <;> simp
      | cons resp rest =>
          rw [sends] at bound
          cases (handler msg request).err <;> simpa using bound

end Server

section Nodes

open Pool

variable {π : Type} {server : Server π} {request : Request}
  {localConfig : LocalConfig} {users : List (List Request)}
  {localState : LocalState} {config : Config} {workload : Workload}
  {state : ChannelState} {k : Nat}

/-- A local node answers like a remote node.  For a handler that sends at most
one message in response to a two-way request that is not streaming, a finished
run of a local channel and a run of an outbound channel in which all responses
have arrived and are delivered give the request the same number of responses,
which is at most one. -/
theorem local_answers_like_remote
    (want : request.wantServerResponse = true)
    (single : request.streaming = false)
    (once : server.SendsOnce request.msg)
    (serves : localConfig.handler = some server.handleRequest)
    (distinctLocal : users.flatten.Nodup)
    (reachedLocal : localConfig.Reaches users localState)
    (finished : localState.ops = [])
    (handled : request ∈ localState.shared.requests.started)
    (unendedLocal : localState.shared.ctxErr request.ctx = none)
    (distinct : ((enqueued workload.users).map Request.msgID).Nodup)
    (client : isServerSequenceNumber request.msgID = false)
    (nonzero : request.msgID ≠ 0)
    (reached : config.Reaches workload (Answers workload) state)
    (called : request ∈ enqueued workload.users)
    (sent : (k, some request) ∈ state.shared.history.sends)
    (live : (state.shared.session k).done = false)
    (unended : state.shared.ctxErr request.ctx = none)
    (arrived : state.shared.history.responsesTo k request.msgID =
      server.handleRequest request.msg)
    (idle : ∀ op ∈ state.ops, request ∉ op.held) :
    (localState.shared.deliveries request).length =
        (deliveries state.shared.history request).length ∧
      (localState.shared.deliveries request).length ≤ 1 ∧
      (deliveries state.shared.history request).length ≤ 1 := by
  have bound := server.length_handleRequest once
  have unique : ∀ other ∈ enqueued workload.users,
      other.msgID = request.msgID → other = request := fun other member same =>
    List.inj_on_of_nodup_map distinct member called same
  have inProcess := local_deliveries distinctLocal want reachedLocal finished
    handled unendedLocal
  have stream := remote_deliveries reached called want single unique client
    nonzero sent live unended idle
  have replies : localConfig.replies request =
      server.handleRequest request.msg := by
    simp [LocalConfig.replies, serves]
  rw [replies] at inProcess
  rw [arrived, Nat.min_eq_right bound] at stream
  rw [inProcess, stream]
  exact ⟨rfl, bound, bound⟩

/-- A server of empty messages whose only handler sends some of them. -/
def emptyServer (count : Nat) : Server Unit where
  handlers _ := some fun _ _ => { sends := List.replicate count (some ()) }
  unmarshalRequest _ := .ok ()
  marshal _ := .ok []

/-- The server's own node. -/
def ownNode (count : Nat) : LocalConfig :=
  { id := 1, handler := some (emptyServer count).handleRequest
    recvBufferSize := 1 }

/-- A request is queued for the handler, which runs to its end. -/
def localRun (count : Nat) : List (Label Branch LocalEvent) :=
  List.replicate 5 (.run 0 .first) ++
    List.replicate (5 + 3 * count) (.run 1 .first)

/-- The server accepts the first stream and answers the call. -/
def answeredOnce : List Step :=
  Step.first 0 2 ++ Step.first 1 6 ++ [.run 0 (.pick .third)] ++
    Step.first 0 8 ++ Step.first 3 7 ++
    [.run 3 (.frame { messageSeqNo := 1 })] ++ Step.first 3 7

/-- The server answers the call a second time. -/
def answeredTwice : List Step :=
  answeredOnce ++ [.run 3 (.frame { messageSeqNo := 1 })] ++ Step.first 3 5

/-- Follow a run of a local channel that one goroutine uses for one call. -/
def followLocal (count : Nat) : Option LocalState :=
  (ownNode count).machine.follow (fun _ _ => true)
    (newLocalChannel [[soleCall]]) (localRun count)

/-- Follow a run of an outbound channel. -/
def followRemote (steps : List Step) : Option ChannelState :=
  (channel smallOutbound).follow (answersCheck callAndClose)
    (smallOutbound.start callAndClose) steps

theorem followLocal_one : (followLocal 1).isSome = true := by
  decide +kernel

theorem followLocal_two : (followLocal 2).isSome = true := by
  decide +kernel

theorem followRemote_once : (followRemote answeredOnce).isSome = true := by
  decide +kernel

theorem followRemote_twice : (followRemote answeredTwice).isSome = true := by
  decide +kernel

/-- The state at the end of a run of the local channel is reached. -/
theorem reaches_followLocal {count : Nat}
    (followed : (followLocal count).isSome = true) :
    (ownNode count).Reaches [[soleCall]] ((followLocal count).get followed) :=
  Machine.reach_of_isSome (fun _ _ _ => trivial) followed

/-- The state at the end of a run of the outbound channel is reached. -/
theorem reaches_followRemote {steps : List Step}
    (followed : (followRemote steps).isSome = true) :
    smallOutbound.Reaches callAndClose (Answers callAndClose)
      ((followRemote steps).get followed) :=
  Machine.reach_of_isSome (fun _ _ => answers_of_check) followed

theorem local_answers_like_remote_once :
    ∃ localState state,
      (ownNode 1).Reaches [[soleCall]] localState ∧
      smallOutbound.Reaches callAndClose (Answers callAndClose) state ∧
      (localState.shared.deliveries soleCall).length =
        (deliveries state.shared.history soleCall).length ∧
      (deliveries state.shared.history soleCall).length = 1 := by
  have inProcess := reaches_followLocal followLocal_one
  have stream := reaches_followRemote followRemote_once
  have once : (emptyServer 1).SendsOnce soleCall.msg := by
    intro handler msg registered _
    cases registered
    exact Nat.le_refl 1
  have same := local_answers_like_remote (k := 0) rfl rfl once rfl
    (by decide) inProcess (by decide +kernel) (by decide +kernel)
    (by decide +kernel) (by decide) (by decide) (by decide) stream (by decide)
    (by decide +kernel) (by decide +kernel) (by decide +kernel)
    (by decide +kernel) (by decide +kernel)
  exact ⟨_, _, inProcess, stream, same.1, by decide +kernel⟩

/-- A handler that sends two messages gets two responses to the caller through
the local channel and one through the stream. -/
theorem local_twice_remote_once :
    ∃ localState state,
      (ownNode 2).Reaches [[soleCall]] localState ∧ localState.ops = [] ∧
      soleCall ∈ localState.shared.requests.started ∧
      localState.shared.ctxErr soleCall.ctx = none ∧
      smallOutbound.Reaches callAndClose (Answers callAndClose) state ∧
      (0, some soleCall) ∈ state.shared.history.sends ∧
      (state.shared.session 0).done = false ∧
      state.shared.ctxErr soleCall.ctx = none ∧
      state.shared.history.responsesTo 0 soleCall.msgID =
        (emptyServer 2).handleRequest soleCall.msg ∧
      (∀ op ∈ state.ops, soleCall ∉ op.held) ∧
      (localState.shared.deliveries soleCall).length = 2 ∧
      (deliveries state.shared.history soleCall).length = 1 :=
  ⟨_, _, reaches_followLocal followLocal_two, by decide +kernel,
    by decide +kernel, by decide +kernel,
    reaches_followRemote followRemote_twice, by decide +kernel,
    by decide +kernel, by decide +kernel, by decide +kernel,
    by decide +kernel, by decide +kernel, by decide +kernel⟩

end Nodes

end Handlers
end Gorums
