import ChatServer.Model.EventLoop

/-!
# Commands typed at the server (`server_utils.cpp`)

A line on standard input is read in portions, as they come, and there is one command. What
`get_memory_usage` and `mallinfo2` say about the process is left out of the metrics.
-/

namespace ChatServer

open EdgeTrigger (Rv)

/-- The string literal `"/metrics"`. -/
def metricsCommand : Bytes := [47, 109, 101, 116, 114, 105, 99, 115]

/-- The newline. -/
def commandEnd : UInt8 := 10

/-- `num_connected` and `num_auth`, after one more slot. -/
def countConnection (counts : Nat × Nat) (conn : ConnFlags) : Nat × Nat :=
  if !hasFlag conn .isActive then counts
  else if !hasFlag conn .isAuth then (counts.1 + 1, counts.2)
  else (counts.1 + 1, counts.2 + 1)

/-- The `read` loop of `handle_server_input`: the command buffer, and whether the input is
complete. The bytes are appended as a string, up to the first NUL, and `back` of a string that is
still empty is undefined. -/
def readServerInput (commandBuffer : Bytes) (inputComplete : Bool) :
    List (Rv UInt8) → Option (Bytes × Bool)
  | [] => some (commandBuffer, inputComplete)
  | .bytes [] :: _ => some (commandBuffer, inputComplete)
  | .bytes (b :: bs) :: rvs =>
    match (commandBuffer ++ cString (b :: bs)).getLast? with
    | none => none
    | some back =>
      readServerInput (commandBuffer ++ cString (b :: bs)) (inputComplete || back == commandEnd) rvs
  | .fail e :: rvs =>
    if isWouldBlock e then some (commandBuffer, inputComplete)
    else if e = .EINTR then readServerInput commandBuffer inputComplete rvs
    else some (commandBuffer, inputComplete)

/-- How `handle_server_input` ends. -/
inductive CommandOutcome where
  | undefined
  | incomplete
  | unknown (command : Bytes)
  | metrics (numConnected numAuth : Nat)
  deriving DecidableEq, Repr

/-- The return code. -/
def CommandOutcome.rc : CommandOutcome → Option Int
  | .undefined => none
  | .incomplete => some (-1)
  | .unknown _ => some (-1)
  | .metrics _ _ => some 0

namespace Server

def logServerMetrics (s : Server) : Nat × Nat :=
  ((List.range s.getSize).map fun i => s.connManager.flags i).foldl countConnection (0, 0)

def handleServerInput (s : Server) (reads : List (Rv UInt8)) : CommandOutcome :=
  match readServerInput [] false reads with
  | none => .undefined
  | some (commandBuffer, inputComplete) =>
    if !inputComplete then .incomplete
    else
      let command :=
        if commandBuffer.getLast? = some commandEnd then commandBuffer.dropLast else commandBuffer
      if command = metricsCommand then .metrics s.logServerMetrics.1 s.logServerMetrics.2
      else .unknown command

end Server

end ChatServer
