import Communo.Chat

/-! A client connection as the server holds it, with the hand-written moves and
the destructor spelled out as the system and TLS calls they make. -/

namespace Communo.Session
open Lib.ByteCodec Lib.CheckedMemory Protocol NumParser

/-- The name of one `SSL_new` allocation; two allocations never share a name. -/
abbrev Handle := Nat

/-- The bytes one successful `SSL_read` into the 4096-byte buffer delivers. -/
structure Received where
  bytes : List Byte
  nonempty : 0 < bytes.length
  fits : bytes.length ≤ bufferSize
  deriving DecidableEq, Repr

inductive ReadResult where
  | data (received : Received)
  | wantRead
  | wantWrite
  | closed
  | fatal
  deriving DecidableEq, Repr

/-- The calls a run of the server makes, in order. `clientID` and `callHandler`
are not calls into a library; they record the issue of an ID and a dispatch. -/
inductive Call where
  | fdSet (fd : Int)
  | fdIsSet (fd : Int)
  | select (maxSd : Int)
  | accept (fd : Int)
  | clientID (id : BitVec 64)
  | shutdown (fd : Int)
  | close (fd : Int)
  | sslNew (ssl : Option Handle)
  | sslSetFd (ssl : Option Handle) (fd : Int)
  | sslAccept (ssl : Option Handle)
  | sslGetError (ssl : Option Handle)
  | sslFree (ssl : Option Handle)
  | sslShutdown (ssl : Option Handle)
  | sslRead (ssl : Option Handle) (result : ReadResult)
  | sslWrite (ssl : Option Handle) (packet : List Byte)
  | callHandler (ssl : Option Handle) (packet : List Byte)
  deriving DecidableEq, Repr

def invalidSocket : Int := -1

structure ClientSocket where
  socket : Int
  ssl : Option Handle := none
  sslEnabled : Bool := false
  chatRoomJoined : Bool := false
  joinedChatRoomID : Byte := 0
  clientID : BitVec 64 := 0
  clientUsername : List Byte := text "<unk>"
  deriving DecidableEq, Repr

namespace ClientSocket

/-- What both moves leave behind in the object they take from. -/
def movedFrom : ClientSocket := { socket := invalidSocket }

def moveConstruct (other : ClientSocket) : ClientSocket × ClientSocket := (other, movedFrom)

/-- The move assignment to `this`: its calls, the new `this` and the emptied `other`. -/
def moveAssign (this other : ClientSocket) : List Call × ClientSocket × ClientSocket :=
  ((if this.ssl.isSome then [.sslFree this.ssl] else []) ++
    (if this.socket ≠ invalidSocket then [.close this.socket] else []), other, movedFrom)

/-- `~ClientSocket`, which shuts the handle down after freeing it. -/
def destroy (this : ClientSocket) : List Call :=
  if this.ssl.isSome then [.sslFree this.ssl, .sslShutdown this.ssl] else []

def close (this : ClientSocket) : List Call := [.shutdown this.socket, .close this.socket]

end ClientSocket

/-- `vector::erase` from the hole on: every later element is move-assigned one
place down and the last place is destroyed. -/
def shiftDown (hole : ClientSocket) : List ClientSocket → List ClientSocket × List Call
  | [] => ([], hole.destroy)
  | next :: later =>
      let (calls, kept, emptied) := hole.moveAssign next
      let (tail, more) := shiftDown emptied later
      (kept :: tail, calls ++ more)

def erase (sockets : List ClientSocket) (position : Nat) : List ClientSocket × List Call :=
  match sockets.drop position with
  | [] => (sockets, [])
  | hole :: later => (sockets.take position ++ (shiftDown hole later).1, (shiftDown hole later).2)

/-- `push_back(std::move(client))`, through the move constructor when the vector
is reallocated. -/
def pushBack (reallocate : Bool) (sockets : List ClientSocket) (client : ClientSocket) :
    List ClientSocket × List Call :=
  if reallocate then
    ((sockets.map fun socket => socket.moveConstruct.1) ++ [client.moveConstruct.1],
      (sockets.map fun socket => socket.moveConstruct.2.destroy).flatten ++ client.moveConstruct.2.destroy)
  else (sockets ++ [client.moveConstruct.1], client.moveConstruct.2.destroy)

inductive SslError where
  | wantRead
  | wantWrite
  | other
  deriving DecidableEq, Repr

/-- What one round of the handshake loop observes: the return of `SSL_accept`,
its error, whether the deadline has passed, and the outcome of `poll`. -/
structure Attempt where
  ret : Int
  error : SslError
  expired : Bool
  pollResult : Int
  interrupted : Bool
  broken : Bool
  deriving DecidableEq, Repr

structure Handshake where
  allocated : Bool
  attached : Bool
  attempts : List Attempt
  deriving DecidableEq, Repr

def giveUp (client : ClientSocket) : Bool × ClientSocket × List Call :=
  (false, { client with ssl := none, sslEnabled := false },
    [.sslAccept client.ssl, .sslGetError client.ssl, .sslFree client.ssl])

/-- The `while (true)` of `InitSSL`. The deadline bounds it, so a list of rounds
that ends without a verdict ends in one more round past the deadline. -/
def handshakeLoop (client : ClientSocket) : List Attempt → Bool × ClientSocket × List Call
  | [] => giveUp client
  | attempt :: rest =>
      let again := fun (result : Bool × ClientSocket × List Call) =>
        (result.1, result.2.1, .sslAccept client.ssl :: .sslGetError client.ssl :: result.2.2)
      if attempt.ret = 1 then (true, { client with sslEnabled := true }, [.sslAccept client.ssl])
      else if attempt.error = .other then giveUp client
      else if attempt.expired then giveUp client
      else if attempt.pollResult = 0 then giveUp client
      else if attempt.pollResult < 0 then
        if attempt.interrupted then again (handshakeLoop client rest) else giveUp client
      else if attempt.broken then giveUp client
      else again (handshakeLoop client rest)

/-- `ClientSocket::InitSSL`; `fresh` is the handle `SSL_new` returns when it returns one. -/
def initSSL (fresh : Handle) (handshake : Handshake) (client : ClientSocket) :
    Bool × ClientSocket × List Call :=
  if !handshake.allocated then
    (false, { client with ssl := none }, .sslNew none :: client.close)
  else if !handshake.attached then
    (false, { client with ssl := none },
      [.sslNew (some fresh), .sslSetFd (some fresh) client.socket, .sslFree (some fresh)] ++ client.close)
  else
    let result := handshakeLoop { client with ssl := some fresh } handshake.attempts
    (result.1, result.2.1,
      .sslNew (some fresh) :: .sslSetFd (some fresh) client.socket :: result.2.2)

end Communo.Session
