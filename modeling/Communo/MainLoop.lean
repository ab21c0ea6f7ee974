import Communo.Handlers
import Communo.Lib.Runs

/-! The server's main loop as a machine. One step is one call of `PoolActivity`
or `HandleNewConnections`, one round of the loop in `ProcessRequests`, or the
end of the loop body; the outcomes of the kernel and of the TLS library are the
inputs of the steps. -/

namespace Communo.MainLoop
open Lib.ByteCodec Lib.CheckedMemory Lib.Runs Protocol NumParser Chat Session Handlers

/-- Memory the code may run into without owning it, the clock, and the results of
`SSL_write`. The bytes behind the buffer are the next members of the server. -/
structure Ambient where
  behindBuffer : Nat → Byte
  behindHash : Byte → Nat → Byte
  seconds : Fin (2 ^ 63)
  written : Option Handle → List Byte → Int

/-- A failed `select` leaves the sets as they were filled in. -/
inductive SelectResult where
  | ready (fds : Int → Bool)
  | failed (interrupted : Bool)

structure Input where
  select : SelectResult
  acceptedFd : Int
  handshake : Handshake
  reallocate : Bool
  read : ReadResult
  ambient : Ambient
  closingRequested : Bool

inductive Pc where
  | poolActivity
  | handleNewConnections
  | processRequests (it : Nat)
  | loopEnd
  | returning
  | exited
  deriving DecidableEq, Repr

structure Config where
  server : Server
  pc : Pc
  fresh : Handle
  trace : List Call

/-- The memory a handler sees in a real run: nothing in it is unreadable. -/
def physicalView (ambient : Ambient) (buffer : Nat → Byte) : View where
  buffer address := some (if address < bufferSize then buffer address else ambient.behindBuffer address)
  behindHash roomID address := some (ambient.behindHash roomID address)
  seconds := ambient.seconds
  written := ambient.written

def filledFds (server : Server) : Int → Bool := fun fd =>
  fd = server.masterSocket || server.clientSockets.any fun client => 0 < client.socket && client.socket = fd

def maxSd (server : Server) : Int :=
  server.clientSockets.foldl (fun sd client => if sd < client.socket then client.socket else sd)
    server.masterSocket

def poolActivity (select : SelectResult) (server : Server) : Server × List Call :=
  let readfds := match select with
    | .ready fds => fun fd => filledFds server fd && fds fd
    | .failed _ => filledFds server
  ({ server with readfds := readfds },
    .fdSet server.masterSocket ::
      (server.clientSockets.flatMap fun client => if 0 < client.socket then [.fdSet client.socket] else []) ++
      [.select (maxSd server + 1)])

def helloMsg : List Byte := text "Server v1.0 on duty! waiting for commands."

/-- The write loop of `SendMOTD`; every round that goes on has written something. -/
def motdLoop (written : Option Handle → List Byte → Int) (ssl : Option Handle) :
    (rounds : Nat) → List Byte → List Call
  | 0, _ => []
  | rounds + 1, data =>
      if data = [] then []
      else if written ssl data ≤ 0 then [.sslWrite ssl data, .sslGetError ssl]
      else .sslWrite ssl data :: motdLoop written ssl rounds (data.drop (written ssl data).toNat)

def motdPacket : List Byte := opcodeBytes .smsgMotd ++ helloMsg

def sendMOTD (ambient : Ambient) (client : ClientSocket) : List Call :=
  motdLoop ambient.written client.ssl motdPacket.length motdPacket

def handleNewConnections (input : Input) (fresh : Handle) (server : Server) : Server × Handle × List Call :=
  if server.readfds server.masterSocket then
    if input.acceptedFd < 0 then
      (server, fresh, [.fdIsSet server.masterSocket, .accept input.acceptedFd])
    else
      let opening := [.fdIsSet server.masterSocket, .accept input.acceptedFd,
        .clientID server.uniqueClientCounter]
      let client : ClientSocket := { socket := input.acceptedFd, clientID := server.uniqueClientCounter }
      let server := { server with uniqueClientCounter := server.uniqueClientCounter + 1 }
      let (succeeded, client, calls) := initSSL fresh input.handshake client
      let fresh := if input.handshake.allocated then fresh + 1 else fresh
      if succeeded then
        let (sockets, moves) := pushBack input.reallocate server.clientSockets client
        ({ server with clientSockets := sockets }, fresh, opening ++ calls ++ moves ++
          (if server.sendHelloMsg then sendMOTD input.ambient client else []))
      else (server, fresh, opening ++ calls ++ [.close input.acceptedFd] ++ client.destroy)
  else (server, fresh, [.fdIsSet server.masterSocket])

/-- `SSL_read` overwrites the front of the buffer and leaves the rest. -/
def receive (buffer : Nat → Byte) (bytes : List Byte) : Nat → Byte := fun address =>
  bytes[address]?.getD (buffer address)

def visit (host : Host) (input : Input) (server : Server) (it : Fin server.clientSockets.length) :
    Checked Exn (Server × Nat × List Call) :=
  let socket := server.clientSockets.get it
  let erased := erase server.clientSockets it
  if server.serverState = .closing then
    .ok ({ server with clientSockets := erased.1 }, it, socket.close ++ erased.2)
  else if server.readfds socket.socket then
    let polled := [Call.fdIsSet socket.socket, .sslRead socket.ssl input.read]
    match input.read with
    | .data received =>
        let server := { server with buffer := receive server.buffer received.bytes }
        let view := physicalView input.ambient server.buffer
        if 2 ≤ received.bytes.length then
          (callHandler host view server it received.bytes.length).bind fun handled =>
            .ok (handled.1, it + 1, polled ++ .callHandler socket.ssl received.bytes :: handled.2)
        else
          .ok (server, it + 1, polled ++ sendSSLPacketToClientSocket view socket (text "Invalid packet."))
    | _ => .ok ({ server with clientSockets := erased.1 }, it, polled ++ socket.close ++ erased.2)
  else .ok (server, it + 1, [.fdIsSet socket.socket])

/-- The end of the loop body in `main`, after `ProcessRequests` has returned. -/
def loopEnd (closingRequested : Bool) (server : Server) : Server × List Call :=
  if closingRequested then
    ({ server with serverState := .closed }, server.clientSockets.flatMap ClientSocket.close)
  else if server.serverState = .closing then ({ server with serverState := .closed }, [])
  else (server, [])

def step (host : Host) (input : Input) (config : Config) : Checked Exn Config :=
  match config.pc with
  | .poolActivity =>
      let (server, calls) := poolActivity input.select config.server
      .ok { config with server := server, pc := .handleNewConnections, trace := config.trace ++ calls }
  | .handleNewConnections =>
      let (server, fresh, calls) := handleNewConnections input config.fresh config.server
      .ok { server := server, pc := .processRequests 0, fresh := fresh, trace := config.trace ++ calls }
  | .processRequests it =>
      if present : it < config.server.clientSockets.length then
        (visit host input config.server ⟨it, present⟩).bind fun visited =>
          .ok { config with
            server := visited.1, pc := .processRequests visited.2.1, trace := config.trace ++ visited.2.2 }
      else .ok { config with pc := .loopEnd }
  | .loopEnd =>
      let (server, calls) := loopEnd input.closingRequested config.server
      .ok { config with
        server := server, trace := config.trace ++ calls,
        pc := if server.serverState = .closed then .returning else .poolActivity }
  | .returning =>
      .ok { config with
        server := { config.server with clientSockets := [] }, pc := .exited,
        trace := config.trace ++ config.server.clientSockets.flatMap ClientSocket.destroy }
  | .exited => .ok config

/-- What is fixed before the loop starts. Buffer and descriptor set are not initialised. -/
structure Boot where
  rows : List Row
  masterSocket : Int
  sendHelloMsg : Bool
  buffer : Nat → Byte
  readfds : Int → Bool

def Boot.config (boot : Boot) : Config where
  server := {
    clientSockets := [],
    uniqueClientCounter := 0,
    chatRooms := loadRooms boot.rows,
    counter := 0,
    buffer := boot.buffer,
    readfds := boot.readfds,
    serverState := .started,
    masterSocket := boot.masterSocket,
    sendHelloMsg := boot.sendHelloMsg }
  pc := .poolActivity
  fresh := 0
  trace := []

abbrev ServerRun (host : Host) (allowed : Input → Config → Prop) (boot : Boot) : List Input → Config → Prop :=
  Execution (step host) allowed boot.config

def exampleAmbient : Ambient where
  behindBuffer _ := 0
  behindHash _ _ := 0
  seconds := 0
  written _ packet := packet.length

def idle : Input where
  select := .ready fun _ => false
  acceptedFd := -1
  handshake := { allocated := true, attached := true, attempts := [] }
  reallocate := false
  read := .wantRead
  ambient := exampleAmbient
  closingRequested := false

def connect (fd : Int) : Input :=
  { idle with
    select := .ready fun _ => true
    acceptedFd := fd
    handshake := { allocated := true, attached := true, attempts := [⟨1, .other, false, 0, false, false⟩] } }

def arrive (fd : Int) : Input := { connect fd with select := .ready fun watched => watched = 3 }

/-- Every watched descriptor but the listening one is ready, and a read gives `received`. -/
def deliver (received : Received) : Input :=
  { idle with select := .ready fun fd => fd ≠ 3, read := .data received }

def incrementPacket : Received := { bytes := [0, 8], nonempty := by decide, fits := by decide }

def hangUp : Input := { idle with read := .closed }

def ready (fds : List Int) : Input := { idle with select := .ready fun fd => decide (fd ∈ fds) }

def passWith (opening : Input) (visits : List Input) : List Input := opening :: opening :: visits ++ [idle, idle]

def exampleBoot (rows : List Row) : Boot where
  rows := rows
  masterSocket := 3
  sendHelloMsg := true
  buffer _ := 0
  readfds _ := false

end Communo.MainLoop
