import PubNubCore.Lib.ReadWindow
import PubNubCore.Network.Text

/-!
# The platform layer over sockets

`lib/sockets/pbpal_sockets.c` and `pbpal_handle_socket_error.c`: sending a piece of text,
reading a line, reading a number of bytes.  All three go through `core.http_buf`, which is a
read window of `PUBNUB_BUF_MAXLEN` bytes, and each may have to be tried again when the socket
would block.

The socket is the stream of bytes which the peer has put on the connection and `recv` has not
delivered yet.  How many of them one `recv` delivers, and whether it fails instead, is up to the
label of the step (`RecvAnswer`).  A failed assertion of the source ends the program, so a
function whose assertion does not hold has no result.
-/

namespace PubNub

/-- `PUBNUB_BUF_MAXLEN`, as in `posix/pubnub_config.h`. -/
def pubnubBufMaxlen : Nat := 32000

/-- `core.http_buf` with `ptr`, `unreadlen` and `left`. -/
abbrev HttpBuf := ReadWindow UInt8 pubnubBufMaxlen

/-- `enum PBSocketState`, without the states only other platforms use. -/
inductive SockState
  | none | sendingData | readLine | read
  deriving DecidableEq, Repr

/-- Why a socket call returns without having moved a byte. -/
inductive SocketError
  | wouldBlock | blockedTooLong | closed | timedOut | other
  deriving DecidableEq, Repr

/-- What a `recv` does: it delivers at most that many bytes, or none. -/
inductive RecvAnswer
  | bytes (n : Nat)
  | error (e : SocketError)
  deriving DecidableEq, Repr

/-- What a `send` does: it accepts at most that many bytes, or none. -/
inductive SendAnswer
  | accepted (n : Nat)
  | error (e : SocketError)
  deriving DecidableEq, Repr

/-- The results of `pbpal_send_status`: `0`, `+1` and `-1`. -/
inductive SendResult
  | done | more | failed
  deriving DecidableEq, Repr

/-- The part of the context which belongs to the platform layer.  `toSend` is the data from
    `ptr` on while something is being sent, `len` the number of bytes still to be read.  The
    socket is its undelivered input; without a value it is `SOCKET_INVALID`. -/
structure Pal where
  buf : HttpBuf
  toSend : Bytes
  len : Nat
  sockState : SockState
  socket : Option Bytes

namespace Pal

/-- `pbpal_init`. -/
def init : Pal where
  buf :=
    { mem := List.replicate pubnubBufMaxlen 0
      ptr := 0
      unreadlen := 0
      left := pubnubBufMaxlen
      mem_length := List.length_replicate }
  toSend := []
  len := 0
  sockState := .none
  socket := none

variable (p : Pal)

/-- `pbpal_handle_socket_error`. -/
def handleSocketError (e : SocketError) : Pal × PubnubRes :=
  match e with
  | .wouldBlock => (p, .inProgress)
  | .blockedTooLong => ({ p with sockState := .none }, .timeout)
  | .closed => ({ p with sockState := .none }, .timeout)
  | .timedOut =>
      ({ p with sockState := .none },
        if p.sockState = .none then .connectionTimeout else .timeout)
  | .other => ({ p with sockState := .none }, .ioError)

/-- The bytes which the peer has sent and `recv` has not delivered. -/
def incoming : Bytes := p.socket.getD []

/-- The bytes a `recv` for at most `asked` bytes delivers. -/
def delivers (asked : Nat) : RecvAnswer → Bytes
  | .bytes n => p.incoming.take (min n asked)
  | .error _ => []

/-- The reason why a `recv` has delivered nothing. -/
def recvError : RecvAnswer → SocketError
  | .bytes _ => .wouldBlock
  | .error e => e

/-- Takes what a `recv` has delivered out of the socket. -/
def deliver (n : Nat) : Pal := { p with socket := p.socket.map (·.drop n) }

/-! ## Sending -/

/-- The end of a piece that has been sent, or has failed. -/
def endSend : Pal :=
  { p with sockState := .none, buf := { p.buf with ptr := 0, unreadlen := 0 } }

/-- `pbpal_send_status`. -/
def sendStatus (a : SendAnswer) : Option (Pal × SendResult) :=
  if p.toSend = [] then some (p, .done)
  else if p.sockState ≠ .sendingData then none
  else
    match a with
    | .accepted 0 => some (p.endSend, .failed)
    | .accepted (n + 1) =>
        if p.toSend.length ≤ n + 1 then some ({ p.endSend with toSend := [] }, .done)
        else some ({ p with toSend := p.toSend.drop (n + 1) }, .more)
    | .error .wouldBlock => some (p, .more)
    | .error _ => some (p.endSend, .failed)

/-- `pbpal_send`.  The length goes through an `uint16_t`. -/
def send (data : Bytes) (a : SendAnswer) : Option (Pal × SendResult) :=
  if p.sockState = .none then
    sendStatus
      { p with toSend := data.take (data.length % 2 ^ 16), sockState := .sendingData,
               buf := { p.buf with left := pubnubBufMaxlen } } a
  else none

/-! ## Reading -/

/-- `pbpal_start_read_line`. -/
def startReadLine : Option Pal :=
  if p.sockState = .none ∧ p.buf.ptr + p.buf.left + p.buf.unreadlen = pubnubBufMaxlen then
    some { p with buf := p.buf.rewind, sockState := .readLine }
  else none

/-- The search for a line feed in what has not been read yet. -/
def scanLine : Pal × PubnubRes :=
  let line := p.buf.unread.takeWhile (· != 10)
  if line.length < p.buf.unread.length then
    ({ p with buf := p.buf.advance (line.length + 1), sockState := .none }, .ok)
  else if p.buf.left = 0 then
    ({ p with buf := p.buf.advance p.buf.unreadlen, sockState := .none }, .txBuffTooSmall)
  else ({ p with buf := p.buf.advance p.buf.unreadlen }, .inProgress)

/-- `pbpal_line_read_status`. -/
def lineReadStatus (a : RecvAnswer) : Option (Pal × PubnubRes) :=
  if p.sockState ≠ .readLine then none
  else if p.buf.unreadlen = 0 then
    if p.buf.ptr + p.buf.left ≠ pubnubBufMaxlen then none
    else
      let r := p.delivers p.buf.left a
      if r = [] then some (p.handleSocketError (recvError a))
      else some { p.deliver r.length with buf := p.buf.fill r }.scanLine
  else some p.scanLine

/-- `pbpal_read_len`. -/
def readLen : Nat := p.buf.ptr

/-- `pbpal_start_read`. -/
def startRead (n : Nat) : Option Pal :=
  if p.sockState = .none ∧ 0 < n ∧ p.buf.ptr + p.buf.unreadlen + p.buf.left = pubnubBufMaxlen then
    some { p with buf := p.buf.rewind, sockState := .read, len := n % 2 ^ 32 }
  else none

/-- The end of `pbpal_read_status`, when `n` more bytes have been found. -/
def tookBytes (n : Nat) : Pal × PubnubRes :=
  let p := { p with buf := p.buf.advance n, len := p.len - n }
  if p.len = 0 ∨ p.buf.left = 0 then ({ p with sockState := .none }, .ok) else (p, .inProgress)

/-- `pbpal_read_status`. -/
def readStatus (a : RecvAnswer) : Option (Pal × PubnubRes) :=
  if p.sockState ≠ .read then none
  else if p.buf.unreadlen = 0 then
    let toRecv := min p.len p.buf.left
    if toRecv = 0 then none
    else
      let r := p.delivers toRecv a
      if r = [] then some (p.handleSocketError (recvError a))
      else some ({ p.deliver r.length with buf := p.buf.fill r }.tookBytes r.length)
  else some (p.tookBytes (min p.buf.unreadlen p.len))

/-! ## Closing -/

/-- `pbpal_closed`. -/
def closed : Bool := p.socket.isNone

/-- `pbpal_close`. -/
def close : Pal :=
  match p.socket with
  | some _ => { p with buf := p.buf.forget, socket := none, sockState := .none }
  | none => { p with buf := p.buf.forget }

end Pal

end PubNub
