import ChatServer.Lib.Istream
import ChatServer.Model.Client

/-!
# The shell of the client (`client_utils.cpp`)

The main thread reads one line of standard input at a time. Its first word is a command; four
of the commands build a request in a buffer on the stack and write it to the socket. What a line
shows is modelled by the values that the format strings print.
-/

namespace ChatServer

/-- `isspace` in the "C" locale. -/
def isspace (c : UInt8) : Bool := c == 32 || (9 ≤ c && c ≤ 13)

/-- The newline. -/
def newline : UInt8 := 10

inductive ShellCommand where
  | p2p
  | world
  | login
  | register
  | quit
  deriving DecidableEq, Repr

/-- `"/p2p"`, `"/world"`, `"/login"`, `"/register"` and `"/quit"`. -/
def ShellCommand.text : ShellCommand → Bytes
  | .p2p => [47, 112, 50, 112]
  | .world => [47, 119, 111, 114, 108, 100]
  | .login => [47, 108, 111, 103, 105, 110]
  | .register => [47, 114, 101, 103, 105, 115, 116, 101, 114]
  | .quit => [47, 113, 117, 105, 116]

/-- The line that the shell shows. -/
inductive ShellNotice where
  | mustLogIn
  | usage (command : ShellCommand)
  | alreadyLoggedIn (command : ShellCommand) (username : Bytes)
  | buildFailed (command : ShellCommand)
  | writeFailed (command : ShellCommand)
  | userQuit
  | unknownCommand (command : Bytes)
  deriving DecidableEq, Repr

/-- What a line does: whether the loop goes on, what is shown, the bytes that went onto the
socket, and what is left of the schedule of its `write` calls. -/
structure ShellResult where
  proceed : Bool
  notice : Option ShellNotice
  sent : Bytes
  sched : List Transfer
  deriving DecidableEq, Repr

/-- A line that only shows something. -/
def ShellResult.shows (notice : Option ShellNotice) (sched : List Transfer) : ShellResult :=
  ⟨true, notice, [], sched⟩

/-- What the four handlers share once the request is built, or is not; the return code of two of
them is not looked at. -/
def sendRequest (command : ShellCommand) (built : Except Int (Bytes × UInt32))
    (sched : List Transfer) : ShellResult :=
  match built with
  | .error _ => .shows (some (.buildFailed command)) sched
  | .ok (requestBuffer, messageLen) =>
    let written := writeOneMessage sched (requestBuffer.take messageLen.toNat)
    if written.1 = -1 then ⟨true, some (.writeFailed command), written.2.1, written.2.2⟩
    else ⟨true, none, written.2.1, written.2.2⟩

/-! ## The handlers; `requestBuffer` is what the uninitialised buffer holds -/

def handleClientRegistration (requestBuffer username password : Bytes) (sched : List Transfer) :
    ShellResult :=
  sendRequest .register (buildRegisterRequest requestBuffer ⟨username, password⟩) sched

def handleClientLogin (requestBuffer username password : Bytes) (sched : List Transfer) :
    ShellResult :=
  sendRequest .login (buildLoginRequest requestBuffer ⟨username, password⟩) sched

def Client.handleWorldMessage (conn : Client) (requestBuffer messageContent : Bytes)
    (sched : List Transfer) : ShellResult :=
  sendRequest .world
    (buildWorldBroadcastRequest requestBuffer ⟨conn.user.username, messageContent⟩) sched

def Client.handlePeerMessage (conn : Client)
    (requestBuffer recipientUsername messageContent : Bytes) (sched : List Transfer) :
    ShellResult :=
  sendRequest .p2p
    (buildP2pBroadcastRequest requestBuffer
      ⟨conn.user.username, recipientUsername, messageContent⟩) sched

/-- `command_shell`. -/
def Client.commandShell (conn : Client) (requestBuffer : Bytes) (sched : List Transfer)
    (inputLine : Bytes) : ShellResult :=
  let first := (Istream.ofList inputLine).extract isspace []
  if first.1.failbit then .shows none sched
  else
    let command := stringToLower first.2
    if command = ShellCommand.p2p.text then
      if !hasFlag conn.flags .isAuth then .shows (some .mustLogIn) sched
      else
        let recipient := first.1.extract isspace []
        let message := (recipient.1.ws isspace).getline newline []
        if recipient.2.isEmpty || message.2.isEmpty then .shows (some (.usage .p2p)) sched
        else conn.handlePeerMessage requestBuffer recipient.2 message.2 sched
    else if command = ShellCommand.world.text then
      if !hasFlag conn.flags .isAuth then .shows (some .mustLogIn) sched
      else
        let message := (first.1.ws isspace).getline newline []
        if message.2.isEmpty then .shows (some (.usage .world)) sched
        else conn.handleWorldMessage requestBuffer message.2 sched
    else if command = ShellCommand.login.text then
      if hasFlag conn.flags .isAuth then
        .shows (some (.alreadyLoggedIn .login (cString conn.user.username))) sched
      else
        let username := first.1.extract isspace []
        let password := username.1.extract isspace []
        if username.2.isEmpty || password.2.isEmpty then .shows (some (.usage .login)) sched
        else handleClientLogin requestBuffer username.2 password.2 sched
    else if command = ShellCommand.register.text then
      if hasFlag conn.flags .isAuth then
        .shows (some (.alreadyLoggedIn .register (cString conn.user.username))) sched
      else
        let username := first.1.extract isspace []
        let password := username.1.extract isspace []
        if username.2.isEmpty || password.2.isEmpty then .shows (some (.usage .register)) sched
        else handleClientRegistration requestBuffer username.2 password.2 sched
    else if command = ShellCommand.quit.text then ⟨false, some .userQuit, [], sched⟩
    else .shows (some (.unknownCommand (cString command))) sched

end ChatServer
