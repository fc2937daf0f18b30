import RobotOs.Lib.Framing

/-!
# TCP

`tcp.rs` of the net crate: the connections of the layer, the calls of the sockets, the
segment processor, and the tick.

A segment is parsed: `Segment` has the header fields that `handle` reads, the options as
bytes, and the payload.  What a call sends is a list of `Emission`.  The number of
connections and the size of the receive ring are build parameters, and the ring is a
power of two because the build checks that.  The clock, the initial sequence number that
`generate_isn` hashes, and the answer of `ip::send` are arguments.  Times are in clock
ticks.
-/

namespace RobotOs.Net

open RobotOs.Lib.Framing (Bytes ofBE)

/-- The parameters of the build. -/
structure Limits where
  maxConns : Nat
  bufBits : Nat

namespace Limits

variable (lim : Limits)

/-- `TCP_BUF_SIZE`. -/
def bufSize : Nat := 2 ^ lim.bufBits

/-- `TCP_BUF_MASK`. -/
def bufMask : Nat := lim.bufSize - 1

/-- `TCP_WINDOW_SIZE`. -/
def windowSize : Nat := min lim.bufSize 65535

end Limits

/-- `window_clamp`. -/
def windowClamp (free : Nat) : Nat := min free 65535

def TCP_MSS : Nat := 1460
def TCP_DEFAULT_REMOTE_MSS : Nat := 536

def TCP_FIN : UInt8 := 0x01
def TCP_SYN : UInt8 := 0x02
def TCP_RST : UInt8 := 0x04
def TCP_ACK : UInt8 := 0x10

def TICKS_PER_MS : Nat := 10000
def RTO_INITIAL : Nat := 1000 * TICKS_PER_MS
def RTO_MIN : Nat := 200 * TICKS_PER_MS
def RTO_MAX : Nat := 60000 * TICKS_PER_MS
def RETX_MAX_ATTEMPTS : Nat := 8
def SYN_RETRY_INTERVAL : Nat := 1000 * TICKS_PER_MS
def SYN_MAX_RETRIES : Nat := 4
def KEEPALIVE_INTERVAL_TICKS : Nat := 30 * 10000000
def KEEPALIVE_MAX_PROBES : Nat := 3
def CWND_INITIAL : Nat := TCP_MSS * 2
def DUP_ACK_THRESHOLD : Nat := 3
def OOO_MAX_SEGMENTS : Nat := 4
def OOO_SEGMENT_MAX_LEN : Nat := 256
def TIME_WAIT : Nat := 2000 * TICKS_PER_MS
def RTT_SCALE : Nat := 1000

/-- `saturating_add` of a `u8`. -/
def satAdd8 (a b : Nat) : Nat := min (a + b) 255

/-- `saturating_add` of a `u32`. -/
def satAdd32 (a b : Nat) : Nat := min (a + b) 4294967295

inductive TcpState where
  | closed
  | listen
  | synSent
  | synRcvd
  | established
  | finWait1
  | finWait2
  | closeWait
  | lastAck
  | timeWait
  deriving DecidableEq, Repr

/-- `OooSegment`.  The length is that of the data. -/
structure OooSegment where
  seq : UInt32
  data : Bytes
  valid : Bool
  deriving DecidableEq, Repr

def OooSegment.empty : OooSegment := ⟨0, [], false⟩

/-- `TcpConn`. -/
structure TcpConn where
  state : TcpState
  localIp : UInt32
  localPort : UInt16
  remoteIp : UInt32
  remotePort : UInt16
  seq : UInt32
  ack : UInt32
  wasAccepted : Bool
  rxBuf : Nat → UInt8
  rxHead : Nat
  rxTail : Nat
  retxBuf : Bytes
  retxLen : Nat
  retxSeq : UInt32
  retxTime : Nat
  rtoTicks : Nat
  srtt : Nat
  rttvar : Nat
  retxCount : Nat
  unacked : Bool
  lastActivity : Nat
  keepaliveProbes : Nat
  cwnd : Nat
  ssthresh : Nat
  dupAckCount : Nat
  lastAckRecv : UInt32
  remoteMss : Nat
  remoteWindow : Nat
  oooBuf : Nat → OooSegment
  oooCount : Nat
  finSeq : UInt32
  timeWaitStart : Nat

namespace TcpConn

def new : TcpConn where
  state := .closed
  localIp := 0
  localPort := 0
  remoteIp := 0
  remotePort := 0
  seq := 0
  ack := 0
  wasAccepted := false
  rxBuf := fun _ => 0
  rxHead := 0
  rxTail := 0
  retxBuf := []
  retxLen := 0
  retxSeq := 0
  retxTime := 0
  rtoTicks := 0
  srtt := 0
  rttvar := 0
  retxCount := 0
  unacked := false
  lastActivity := 0
  keepaliveProbes := 0
  cwnd := 0
  ssthresh := 0
  dupAckCount := 0
  lastAckRecv := 0
  remoteMss := 0
  remoteWindow := 0
  oooBuf := fun _ => .empty
  oooCount := 0
  finSeq := 0
  timeWaitStart := 0

/-- `reset_conn_state`.  The segments out of order stay. -/
def resetConnState (lim : Limits) (now : Nat) (c : TcpConn) : TcpConn :=
  { c with
    retxLen := 0
    retxSeq := 0
    retxTime := now
    rtoTicks := RTO_INITIAL
    srtt := 0
    rttvar := 0
    retxCount := 0
    unacked := false
    lastActivity := now
    keepaliveProbes := 0
    cwnd := CWND_INITIAL
    ssthresh := lim.bufSize
    dupAckCount := 0
    lastAckRecv := 0
    remoteMss := TCP_DEFAULT_REMOTE_MSS
    rxHead := 0
    rxTail := 0 }

/-- `rx_available`. -/
def rxAvailable (lim : Limits) (c : TcpConn) : Nat :=
  if c.rxTail ≥ c.rxHead then c.rxTail - c.rxHead else lim.bufSize - c.rxHead + c.rxTail

/-- `rx_free_space`. -/
def rxFreeSpace (lim : Limits) (c : TcpConn) : Nat := lim.bufSize - c.rxAvailable lim - 1

end TcpConn

/-- A segment that arrives, with the address of its sender. -/
structure Segment where
  srcIp : UInt32
  srcPort : UInt16
  dstPort : UInt16
  seq : UInt32
  ackNum : UInt32
  flags : UInt8
  window : Nat
  options : Bytes
  payload : Bytes
  deriving DecidableEq, Repr

/-- The segment has the flag. -/
def Segment.has (seg : Segment) (flag : UInt8) : Bool := seg.flags &&& flag ≠ 0

/-- A segment that is sent. -/
structure Emission where
  dstIp : UInt32
  srcPort : UInt16
  dstPort : UInt16
  flags : UInt8
  seq : UInt32
  ack : UInt32
  data : Bytes
  window : Nat
  deriving DecidableEq, Repr

/-! ## Sequence numbers and options -/

/-- `parse_mss_option`, with the options that are left.  `fuel` bounds them. -/
def parseMssOption : Nat → Bytes → Nat
  | 0, _ => TCP_DEFAULT_REMOTE_MSS
  | _ + 1, [] => TCP_DEFAULT_REMOTE_MSS
  | fuel + 1, kind :: rest =>
    if kind = 0 then TCP_DEFAULT_REMOTE_MSS
    else if kind = 1 then parseMssOption fuel rest
    else if kind = 2 then
      match rest with
      | len :: hi :: lo :: _ =>
        if len = 4 then max (ofBE [hi, lo]) 64 else TCP_DEFAULT_REMOTE_MSS
      | _ => TCP_DEFAULT_REMOTE_MSS
    else
      match rest with
      | [] => TCP_DEFAULT_REMOTE_MSS
      | len :: _ =>
        if len.toNat < 2 then TCP_DEFAULT_REMOTE_MSS
        else parseMssOption fuel (rest.drop (len.toNat - 1))

/-- The maximal segment size that the peer announces. -/
def Segment.mss (seg : Segment) : Nat := parseMssOption seg.options.length seg.options

/-- `seq_in_window`. -/
def seqInWindow (seqNum winStart : UInt32) (winSize : Nat) : Bool :=
  (seqNum - winStart).toNat < winSize

/-- `fin_next_ack`. -/
def finNextAck (seq : UInt32) (payloadLen : Nat) : UInt32 := seq + UInt32.ofNat payloadLen + 1

/-- `segment_acceptable`. -/
def segmentAcceptable (lim : Limits) (seqNum : UInt32) (segLen : Nat) (rcvNxt : UInt32) : Bool :=
  seqInWindow seqNum rcvNxt lim.windowSize || (segLen = 0 && seqNum = rcvNxt - 1)

/-- `is_ack_advancing`. -/
def isAckAdvancing (ackNum retxSeq : UInt32) (retxLen : Nat) : Bool :=
  if retxLen = 0 then false
  else
    (0 < (ackNum - retxSeq).toNat && (ackNum - retxSeq).toNat ≤ retxLen) ||
      ackNum = retxSeq + UInt32.ofNat retxLen

/-! ## The connection -/

namespace TcpConn

variable (lim : Limits)

/-- What the connection sends with the full window. -/
def emit (c : TcpConn) (flags : UInt8) (seq ack : UInt32) (data : Bytes) : Emission :=
  ⟨c.remoteIp, c.localPort, c.remotePort, flags, seq, ack, data, lim.windowSize⟩

/-- What the connection sends with the free space as its window. -/
def emitWindow (c : TcpConn) : Emission :=
  ⟨c.remoteIp, c.localPort, c.remotePort, TCP_ACK, c.seq, c.ack, [],
    windowClamp (c.rxFreeSpace lim)⟩

/-- `update_rtt`. -/
def updateRtt (c : TcpConn) (measured : Nat) : TcpConn :=
  let r := measured * RTT_SCALE
  let diff := if c.srtt > r then c.srtt - r else r - c.srtt
  let rttvar := if c.srtt = 0 then r / 2 else (c.rttvar * 3 + diff) / 4
  let srtt := if c.srtt = 0 then r else (c.srtt * 7 + r) / 8
  let rto := srtt / RTT_SCALE + max (rttvar * 4 / RTT_SCALE) TICKS_PER_MS
  { c with
    srtt := srtt
    rttvar := rttvar
    rtoTicks := if rto < RTO_MIN then RTO_MIN else if rto > RTO_MAX then RTO_MAX else rto }

/-- The loop that stores bytes in the ring until it is full, and counts them. -/
def pushRx (c : TcpConn) : Bytes → Nat × TcpConn
  | [] => (0, c)
  | byte :: bytes =>
    let next := (c.rxTail + 1) &&& lim.bufMask
    if next = c.rxHead then (0, c)
    else
      let out := pushRx { c with rxBuf := Function.update c.rxBuf c.rxTail byte, rxTail := next }
        bytes
      (out.1 + 1, out.2)

/-- The entry of the highest sequence number, counted from `ack`. -/
def oooFarthest (c : TcpConn) : Option (Nat × Nat) :=
  (List.range OOO_MAX_SEGMENTS).foldl (fun best i =>
    if !(c.oooBuf i).valid then best
    else
      let off := ((c.oooBuf i).seq - c.ack).toNat
      match best with
      | none => some (i, off)
      | some (_, b) => if off > b then some (i, off) else best) none

/-- The entry for a new segment.  A full buffer evicts one. -/
def oooSlot (c : TcpConn) : Option Nat × Nat :=
  match (List.range OOO_MAX_SEGMENTS).find? fun i => !(c.oooBuf i).valid with
  | some i => (some i, c.oooCount)
  | none =>
    if c.oooCount ≥ OOO_MAX_SEGMENTS then
      match c.oooFarthest with
      | some (i, _) => (some i, c.oooCount - 1)
      | none => (none, c.oooCount)
    else (none, c.oooCount)

/-- `store_ooo_segment`. -/
def storeOooSegment (c : TcpConn) (segSeq : UInt32) (data : Bytes) : TcpConn :=
  let kept := data.take OOO_SEGMENT_MAX_LEN
  if kept = [] then c
  else if (List.range OOO_MAX_SEGMENTS).any fun i =>
      (c.oooBuf i).valid && (c.oooBuf i).seq = segSeq then c
  else
    match c.oooSlot with
    | (some i, count) =>
      { c with
        oooBuf := Function.update c.oooBuf i ⟨segSeq, kept, true⟩
        oooCount := satAdd8 count 1 }
    | (none, count) => { c with oooCount := count }

/-- A round of `flush_ooo_segments`: the first segment that continues the stream. -/
def flushOne (c : TcpConn) : Option (TcpConn × Bool) :=
  match (List.range OOO_MAX_SEGMENTS).find? fun i =>
      (c.oooBuf i).valid && (c.oooBuf i).seq = c.ack with
  | none => none
  | some i =>
    let out := pushRx lim c (c.oooBuf i).data
    let c' := { out.2 with ack := c.ack + UInt32.ofNat out.1 }
    if out.1 = (c.oooBuf i).data.length then
      some ({ c' with
        oooBuf := Function.update c.oooBuf i { c.oooBuf i with valid := false }
        oooCount := c.oooCount - 1 }, true)
    else some (c', false)

/-- `flush_ooo_segments`. -/
def flushOooSegments : Nat → TcpConn → TcpConn
  | 0, c => c
  | fuel + 1, c =>
    match c.flushOne lim with
    | none => c
    | some (c', true) => flushOooSegments fuel c'
    | some (c', false) => c'

/-- The ACK processing of an established connection.  The flag says that a segment was
retransmitted. -/
def ackProcessing (now : Nat) (seg : Segment) (c : TcpConn) : TcpConn × Bool :=
  let c := { c with lastActivity := now, keepaliveProbes := 0, remoteWindow := seg.window }
  if c.unacked && isAckAdvancing seg.ackNum c.retxSeq c.retxLen then
    let c := if c.retxCount = 0 then c.updateRtt (now - c.retxTime) else c
    ({ c with
        unacked := false
        retxLen := 0
        retxCount := 0
        dupAckCount := 0
        lastAckRecv := seg.ackNum
        cwnd := if c.cwnd < c.ssthresh then satAdd32 c.cwnd TCP_MSS
          else satAdd32 c.cwnd (max (TCP_MSS * TCP_MSS / max c.cwnd 1) 1) }, false)
  else if seg.ackNum = c.lastAckRecv && c.unacked then
    let dup := satAdd8 c.dupAckCount 1
    if dup = DUP_ACK_THRESHOLD then
      let ssthresh := max (c.cwnd / 2) CWND_INITIAL
      ({ c with
          dupAckCount := dup
          ssthresh := ssthresh
          cwnd := satAdd32 ssthresh (DUP_ACK_THRESHOLD * TCP_MSS)
          retxTime := now
          retxCount := satAdd8 c.retxCount 1 }, true)
    else ({ c with dupAckCount := dup }, false)
  else ({ c with lastAckRecv := seg.ackNum }, false)

/-- The segment that waits for its acknowledgement. -/
def retxEmission (c : TcpConn) : Emission :=
  c.emit lim TCP_ACK c.retxSeq c.ack (c.retxBuf.take c.retxLen)

/-- The payload of a segment of an established connection. -/
def payloadProcessing (now : Nat) (seg : Segment) (c : TcpConn) : TcpConn × List Emission :=
  if seg.payload = [] then (c, [])
  else if seg.seq = c.ack then
    let out := pushRx lim c seg.payload
    let c' := flushOooSegments lim (OOO_MAX_SEGMENTS + 1)
      { out.2 with ack := seg.seq + UInt32.ofNat out.1, lastActivity := now }
    (c', [c'.emitWindow lim])
  else if (seg.seq - c.ack).toNat < lim.windowSize then
    let c' := { c.storeOooSegment seg.seq seg.payload with lastActivity := now }
    (c', [c'.emit lim TCP_ACK c'.seq c'.ack []])
  else (c, [])

/-- The FIN of a segment of an established connection.  `expected` is the `ack` before
the payload. -/
def finProcessing (now : Nat) (seg : Segment) (expected : UInt32) (c : TcpConn) :
    TcpConn × List Emission :=
  if !seg.has TCP_FIN then (c, [])
  else if !seqInWindow seg.seq expected lim.windowSize then (c, [])
  else if c.ack ≠ seg.seq + UInt32.ofNat seg.payload.length then (c, [])
  else
    let c' := { c with ack := c.ack + 1, state := .closeWait, lastActivity := now }
    (c', [c'.emit lim TCP_ACK c'.seq c'.ack []])

/-- A segment for an established connection. -/
def handleEstablished (now : Nat) (seg : Segment) (c : TcpConn) : TcpConn × List Emission :=
  if !segmentAcceptable lim seg.seq seg.payload.length c.ack then (c, [])
  else
    let out := if seg.has TCP_ACK then c.ackProcessing now seg else (c, false)
    let sent := if out.2 then [out.1.retxEmission lim] else []
    if out.2 ∧ seg.payload = [] ∧ !seg.has TCP_FIN then (out.1, sent)
    else
      let received := out.1.payloadProcessing lim now seg
      let closing := received.1.finProcessing lim now seg c.ack
      (closing.1, sent ++ received.2 ++ closing.2)

/-- The end of the peer's stream after our own. -/
def enterTimeWait (now : Nat) (seg : Segment) (c : TcpConn) : TcpConn × List Emission :=
  let c' := { c with
    ack := finNextAck seg.seq seg.payload.length, state := .timeWait, timeWaitStart := now }
  (c', [c'.emit lim TCP_ACK c'.seq c'.ack []])

/-- The RST of a segment that the connection accepts. -/
def rstAcceptable (seg : Segment) (c : TcpConn) : Bool :=
  match c.state with
  | .synSent => seg.has TCP_ACK && seg.ackNum = c.seq + 1
  | .listen => false
  | .closed => false
  | _ => seqInWindow seg.seq c.ack lim.windowSize

/-- `handle` for the connection that the segment belongs to. -/
def handleConn (now : Nat) (seg : Segment) (c : TcpConn) : TcpConn × List Emission :=
  if seg.has TCP_RST then
    if !c.rstAcceptable lim seg then (c, [])
    else
      ({ c with
          state := .closed, unacked := false, retxLen := 0, retxCount := 0, dupAckCount := 0
          wasAccepted := false }, [])
  else
    match c.state with
    | .synSent =>
      if seg.has TCP_SYN && seg.has TCP_ACK && seg.ackNum = c.seq + 1 then
        let c' := { c with
          seq := c.seq + 1
          ack := seg.seq + 1
          state := .established
          remoteMss := seg.mss
          remoteWindow := seg.window
          lastActivity := now
          keepaliveProbes := 0 }
        (c', [c'.emit lim TCP_ACK c'.seq c'.ack []])
      else (c, [])
    | .synRcvd =>
      if seg.has TCP_ACK && !seg.has TCP_SYN && seg.ackNum = c.seq + 1 then
        ({ c with
            seq := c.seq + 1
            state := .established
            remoteWindow := seg.window
            lastActivity := now
            keepaliveProbes := 0 }, [])
      else (c, [])
    | .established => c.handleEstablished lim now seg
    | .finWait1 =>
      if seg.has TCP_ACK then
        if seg.ackNum = c.finSeq + 1 then
          if seg.has TCP_FIN && seqInWindow seg.seq c.ack lim.windowSize then
            c.enterTimeWait lim now seg
          else ({ c with state := .finWait2 }, [])
        else (c, [])
      else if seg.has TCP_FIN && seqInWindow seg.seq c.ack lim.windowSize then
        c.enterTimeWait lim now seg
      else (c, [])
    | .finWait2 =>
      if seg.has TCP_FIN && seqInWindow seg.seq c.ack lim.windowSize then
        c.enterTimeWait lim now seg
      else (c, [])
    | .lastAck =>
      if seg.has TCP_ACK && seg.ackNum = c.finSeq + 1 then
        ({ c with state := .closed, unacked := false }, [])
      else (c, [])
    | _ => (c, [])

/-- The connection that a SYN to a listener opens. -/
def passiveOpen (now : Nat) (isn ip : UInt32) (seg : Segment) (c : TcpConn) : TcpConn :=
  { ({ c with
        state := .synRcvd, localIp := ip, localPort := seg.dstPort, remoteIp := seg.srcIp
        remotePort := seg.srcPort } : TcpConn).resetConnState lim now with
    seq := isn, ack := seg.seq + 1, remoteMss := seg.mss }

/-- The connection that `connect` opens. -/
def activeOpen (now : Nat) (isn ip dstIp : UInt32) (dstPort srcPort : UInt16) (c : TcpConn) :
    TcpConn :=
  { ({ c with
        state := .synSent, localIp := ip, localPort := srcPort, remoteIp := dstIp
        remotePort := dstPort } : TcpConn).resetConnState lim now with
    seq := isn, ack := 0 }

/-- `send_data` when the link takes the segment.  `none` is an error. -/
def sendData (now : Nat) (linkOk : Bool) (data : Bytes) (c : TcpConn) :
    Option Nat × TcpConn × List Emission :=
  if c.state ≠ .established then (none, c, [])
  else if c.remoteWindow = 0 then (some 0, c, [])
  else
    let maxSend :=
      min (min (min (min c.cwnd c.remoteMss) c.remoteWindow) TCP_MSS) data.length
    if maxSend = 0 then (some 0, c, [])
    else if !linkOk then (none, c, [])
    else
      (some maxSend,
        { c with
          seq := c.seq + UInt32.ofNat maxSend
          retxBuf := data.take maxSend
          retxLen := maxSend
          retxSeq := c.seq
          retxTime := now
          retxCount := 0
          unacked := true
          lastActivity := now },
        [c.emit lim TCP_ACK c.seq c.ack (data.take maxSend)])

/-- The loop of `recv`. -/
def readRx : Nat → TcpConn → Bytes × TcpConn
  | 0, c => ([], c)
  | n + 1, c =>
    let byte := c.rxBuf (c.rxHead &&& lim.bufMask)
    let out := readRx n { c with rxHead := (c.rxHead + 1) &&& lim.bufMask }
    (byte :: out.1, out.2)

/-- `recv` into a buffer of `len` bytes.  `none` is the end of the stream. -/
def recv (len : Nat) (c : TcpConn) : Option Bytes × TcpConn × List Emission :=
  let avail := c.rxAvailable lim
  if avail = 0 then
    if c.state = .closeWait ∨ c.state = .lastAck ∨ c.state = .timeWait ∨ c.state = .closed then
      (none, c, [])
    else (some [], c, [])
  else
    let n := min avail len
    let out := readRx lim n c
    (some out.1, out.2, if n > 0 then [out.2.emitWindow lim] else [])

/-- `close`. -/
def close (c : TcpConn) : TcpConn × List Emission :=
  match c.state with
  | .established =>
    ({ c with finSeq := c.seq, state := .finWait1 },
      [c.emit lim (TCP_FIN ||| TCP_ACK) c.seq c.ack []])
  | .closeWait =>
    ({ c with finSeq := c.seq, state := .lastAck },
      [c.emit lim (TCP_FIN ||| TCP_ACK) c.seq c.ack []])
  | _ => ({ c with state := .closed, unacked := false }, [])

/-- The handshake timer. -/
def tickHandshake (now : Nat) (c : TcpConn) : TcpConn × List Emission :=
  if now - c.retxTime ≥ SYN_RETRY_INTERVAL then
    if c.retxCount ≥ SYN_MAX_RETRIES then
      ({ c with
          state := .closed, unacked := false, retxLen := 0, retxCount := 0
          wasAccepted := false }, [])
    else
      ({ c with retxCount := satAdd8 c.retxCount 1, retxTime := now },
        [if c.state = .synSent then c.emit lim TCP_SYN c.seq 0 []
          else c.emit lim (TCP_SYN ||| TCP_ACK) c.seq c.ack []])
  else (c, [])

/-- The retransmission timer fires. -/
def retransmit (now : Nat) (c : TcpConn) : TcpConn × List Emission :=
  if c.retxCount ≥ RETX_MAX_ATTEMPTS then ({ c with state := .closed, unacked := false }, [])
  else
    ({ c with
        retxCount := satAdd8 c.retxCount 1
        retxTime := now
        rtoTicks := if c.rtoTicks * 2 > RTO_MAX then RTO_MAX else c.rtoTicks * 2
        ssthresh := max (c.cwnd / 2) CWND_INITIAL
        cwnd := TCP_MSS },
      [c.retxEmission lim])

/-- The keep-alive timer. -/
def keepAlive (now : Nat) (c : TcpConn) : TcpConn × List Emission :=
  if now - c.lastActivity ≥ KEEPALIVE_INTERVAL_TICKS then
    if c.keepaliveProbes ≥ KEEPALIVE_MAX_PROBES then
      ({ c with state := .closed, unacked := false }, [])
    else
      ({ c with keepaliveProbes := satAdd8 c.keepaliveProbes 1, lastActivity := now },
        [c.emit lim TCP_ACK (c.seq - 1) c.ack []])
  else (c, [])

/-- `tcp_tick` for one connection. -/
def tickConn (now : Nat) (c : TcpConn) : TcpConn × List Emission :=
  if c.state = .closed ∨ c.state = .listen then (c, [])
  else if c.state = .synSent ∨ c.state = .synRcvd then c.tickHandshake lim now
  else if c.unacked = true ∧ now - c.retxTime ≥ c.rtoTicks then c.retransmit lim now
  else if c.state = .timeWait then
    if now - c.timeWaitStart ≥ TIME_WAIT then ({ c with state := .closed, unacked := false }, [])
    else (c, [])
  else if c.state = .established ∧ c.unacked = false then c.keepAlive lim now
  else (c, [])

/-! ### What the pieces leave alone -/

section Frames

variable (c : TcpConn)

theorem pushRx_frame (bytes : Bytes) :
    ∃ rxBuf rxTail, (pushRx lim c bytes).2 = { c with rxBuf := rxBuf, rxTail := rxTail } := by
  induction bytes generalizing c with
  | nil => exact ⟨c.rxBuf, c.rxTail, rfl⟩
  | cons byte bytes ih =>
    rw [pushRx]
    dsimp only
    split_ifs
    · exact ⟨c.rxBuf, c.rxTail, rfl⟩
    · obtain ⟨rxBuf, rxTail, heq⟩ := ih
        { c with
          rxBuf := Function.update c.rxBuf c.rxTail byte
          rxTail := (c.rxTail + 1) &&& lim.bufMask }
      exact ⟨rxBuf, rxTail, heq⟩

/-- A connection that differs in what it received only. -/
def Received (c c' : TcpConn) : Prop :=
  ∃ rxBuf rxTail ack oooBuf oooCount lastActivity,
    c' = { c with
      rxBuf := rxBuf
      rxTail := rxTail
      ack := ack
      oooBuf := oooBuf
      oooCount := oooCount
      lastActivity := lastActivity }

theorem Received.refl : Received c c := ⟨_, _, _, _, _, _, rfl⟩

theorem Received.trans {c c' c'' : TcpConn} (h : Received c c') (h' : Received c' c'') :
    Received c c'' := by
  obtain ⟨_, _, _, _, _, _, rfl⟩ := h
  obtain ⟨_, _, _, _, _, _, rfl⟩ := h'
  exact ⟨_, _, _, _, _, _, rfl⟩

theorem received_flushOne {c' : TcpConn} {more : Bool} (h : c.flushOne lim = some (c', more)) :
    Received c c' := by
  unfold flushOne at h
  split at h
  · cases h
  · rename_i i _
    obtain ⟨rxBuf, rxTail, heq⟩ := pushRx_frame lim c (c.oooBuf i).data
    dsimp only at h
    rw [heq] at h
    split_ifs at h
    · obtain ⟨rfl, -⟩ := Prod.mk.inj (Option.some.inj h)
      exact ⟨_, _, _, _, _, _, rfl⟩
    · obtain ⟨rfl, -⟩ := Prod.mk.inj (Option.some.inj h)
      exact ⟨_, _, _, _, _, _, rfl⟩

theorem received_flushOooSegments (fuel : Nat) : Received c (flushOooSegments lim fuel c) := by
  induction fuel generalizing c with
  | zero => exact .refl c
  | succ fuel ih =>
    rw [flushOooSegments]
    cases hone : c.flushOne lim with
    | none => exact .refl c
    | some out =>
      obtain ⟨c', more⟩ := out
      have hfirst := received_flushOne lim c hone
      cases more with
      | true => exact hfirst.trans (ih c')
      | false => exact hfirst

theorem received_storeOooSegment (segSeq : UInt32) (data : Bytes) :
    Received c (c.storeOooSegment segSeq data) := by
  unfold storeOooSegment
  dsimp only
  split_ifs
  · exact .refl c
  · exact .refl c
  · cases c.oooSlot with
    | mk slot count =>
      cases slot with
      | none => exact ⟨_, _, _, _, _, _, rfl⟩
      | some i => exact ⟨_, _, _, _, _, _, rfl⟩

theorem received_payloadProcessing (now : Nat) (seg : Segment) :
    Received c (c.payloadProcessing lim now seg).1 := by
  unfold payloadProcessing
  split_ifs
  · exact .refl c
  · dsimp only
    obtain ⟨rxBuf, rxTail, heq⟩ := pushRx_frame lim c seg.payload
    rw [heq]
    refine Received.trans ?_ (received_flushOooSegments lim _ _)
    exact ⟨_, _, _, _, _, _, rfl⟩
  · refine (received_storeOooSegment c seg.seq seg.payload).trans ?_
    exact ⟨_, _, _, _, _, _, rfl⟩
  · exact .refl c

/-- The FIN is not processed, or ends the stream. -/
theorem finProcessing_cases (now : Nat) (seg : Segment) (expected : UInt32) :
    (c.finProcessing lim now seg expected).1 = c ∨
      (c.finProcessing lim now seg expected).1 =
        { c with ack := c.ack + 1, state := .closeWait, lastActivity := now } := by
  unfold finProcessing
  split_ifs
  · exact .inl rfl
  · exact .inl rfl
  · exact .inl rfl
  · exact .inr rfl

theorem updateRtt_frame (measured : Nat) :
    ∃ srtt rttvar rtoTicks, rtoTicks ≤ RTO_MAX ∧
      c.updateRtt measured = { c with srtt := srtt, rttvar := rttvar, rtoTicks := rtoTicks } := by
  have hclamp : ∀ rto,
      (if rto < RTO_MIN then RTO_MIN else if rto > RTO_MAX then RTO_MAX else rto) ≤ RTO_MAX := by
    intro rto
    split_ifs with hlow hhigh
    · decide
    · exact le_rfl
    · exact Nat.le_of_not_lt hhigh
  exact ⟨_, _, _, hclamp _, rfl⟩

/-- An acknowledgement of the segment that waits for it ends the wait.  Another one
leaves the segment in place. -/
theorem ackProcessing_cases (now : Nat) (seg : Segment) :
    (c.unacked && isAckAdvancing seg.ackNum c.retxSeq c.retxLen) = true ∧
      (∃ srtt rttvar rtoTicks cwnd, (rtoTicks = c.rtoTicks ∨ rtoTicks ≤ RTO_MAX) ∧
        (c.ackProcessing now seg).1 =
          { c with
            lastActivity := now
            keepaliveProbes := 0
            remoteWindow := seg.window
            unacked := false
            retxLen := 0
            retxCount := 0
            dupAckCount := 0
            lastAckRecv := seg.ackNum
            srtt := srtt
            rttvar := rttvar
            rtoTicks := rtoTicks
            cwnd := cwnd }) ∨
    (c.unacked && isAckAdvancing seg.ackNum c.retxSeq c.retxLen) = false ∧
      (∃ retxTime retxCount dupAckCount lastAckRecv ssthresh cwnd,
        (retxTime = c.retxTime ∨ retxTime = now) ∧
        (c.ackProcessing now seg).1 =
          { c with
            lastActivity := now
            keepaliveProbes := 0
            remoteWindow := seg.window
            retxTime := retxTime
            retxCount := retxCount
            dupAckCount := dupAckCount
            lastAckRecv := lastAckRecv
            ssthresh := ssthresh
            cwnd := cwnd }) := by
  unfold ackProcessing
  dsimp only
  cases hadv : c.unacked && isAckAdvancing seg.ackNum c.retxSeq c.retxLen with
  | true =>
    refine .inl ⟨rfl, ?_⟩
    rw [if_pos rfl]
    by_cases hcount : c.retxCount = 0
    · rw [if_pos hcount]
      obtain ⟨_, _, _, hrto, heq⟩ := updateRtt_frame
        { c with lastActivity := now, keepaliveProbes := 0, remoteWindow := seg.window }
        (now - c.retxTime)
      dsimp only
      rw [heq]
      exact ⟨_, _, _, _, .inr hrto, rfl⟩
    · rw [if_neg hcount]
      exact ⟨_, _, _, _, .inl rfl, rfl⟩
  | false =>
    refine .inr ⟨rfl, ?_⟩
    rw [if_neg Bool.false_ne_true]
    split_ifs
    · exact ⟨_, _, _, _, _, _, .inr rfl, rfl⟩
    · exact ⟨_, _, _, _, _, _, .inl rfl, rfl⟩
    · exact ⟨_, _, _, _, _, _, .inl rfl, rfl⟩

/-- A segment of an established connection: what the acknowledgement does, and then what
is received, and then the end of the stream. -/
theorem handleEstablished_cases (now : Nat) (seg : Segment) :
    (c.handleEstablished lim now seg).1 = c ∨
    segmentAcceptable lim seg.seq seg.payload.length c.ack = true ∧
    ∃ c₁ c₂, (c₁ = c ∨ seg.has TCP_ACK = true ∧ c₁ = (c.ackProcessing now seg).1) ∧
      Received c₁ c₂ ∧ (c₂ = c₁ ∨ c₂ = (c₁.payloadProcessing lim now seg).1) ∧
      ((c.handleEstablished lim now seg).1 = c₂ ∨
        (c.handleEstablished lim now seg).1 =
          { c₂ with ack := c₂.ack + 1, state := .closeWait, lastActivity := now }) := by
  have hout : ∀ out : TcpConn × Bool,
      out = (if seg.has TCP_ACK then c.ackProcessing now seg else (c, false)) →
      out.1 = c ∨ seg.has TCP_ACK = true ∧ out.1 = (c.ackProcessing now seg).1 := by
    intro out heq
    split_ifs at heq with hack
    · exact .inr ⟨hack, by rw [heq]⟩
    · exact .inl (by rw [heq])
  unfold handleEstablished
  dsimp only
  generalize (if seg.has TCP_ACK then c.ackProcessing now seg else (c, false)) = out at hout
  generalize (if out.2 = true then [out.1.retxEmission lim] else []) = sent
  split_ifs with hacceptable
  · exact .inl rfl
  · exact .inr ⟨by simpa using hacceptable, out.1, out.1, hout out rfl, .refl _, .inl rfl,
      .inl rfl⟩
  · exact .inr ⟨by simpa using hacceptable, out.1, (out.1.payloadProcessing lim now seg).1,
      hout out rfl,
      received_payloadProcessing lim out.1 now seg, .inr rfl,
      finProcessing_cases lim _ now seg c.ack⟩

/-- The states that a segment leads to from another one. -/
def Advances : TcpState → TcpState → Prop
  | .synSent, .established => True
  | .synRcvd, .established => True
  | .finWait1, .finWait2 => True
  | .finWait1, .timeWait => True
  | .finWait2, .timeWait => True
  | _, _ => False

/-- A connection that differs in its state and in what it knows of the peer. -/
def Moved (c c' : TcpConn) : Prop :=
  ∃ state seq ack remoteMss remoteWindow lastActivity keepaliveProbes timeWaitStart,
    c' = { c with
      state := state
      seq := seq
      ack := ack
      remoteMss := remoteMss
      remoteWindow := remoteWindow
      lastActivity := lastActivity
      keepaliveProbes := keepaliveProbes
      timeWaitStart := timeWaitStart }

theorem Moved.refl : Moved c c := ⟨_, _, _, _, _, _, _, _, rfl⟩

/-- A segment goes to the processing of an established connection, or closes the
connection, or moves it along the handshake or the close. -/
theorem handleConn_cases (now : Nat) (seg : Segment) :
    (c.state = .established ∧ seg.has TCP_RST = false) ∧
      (c.handleConn lim now seg).1 = (c.handleEstablished lim now seg).1 ∨
    (∃ retxLen retxCount dupAckCount wasAccepted,
      (c.handleConn lim now seg).1 =
        { c with
          state := .closed
          unacked := false
          retxLen := retxLen
          retxCount := retxCount
          dupAckCount := dupAckCount
          wasAccepted := wasAccepted }) ∨
    (Moved c (c.handleConn lim now seg).1 ∧
      ((c.handleConn lim now seg).1 = c ∨
        Advances c.state (c.handleConn lim now seg).1.state)) := by
  unfold handleConn
  by_cases hrst : seg.has TCP_RST = true
  · rw [if_pos hrst]
    split_ifs
    · exact .inr (.inr ⟨.refl _, .inl rfl⟩)
    · exact .inr (.inl ⟨_, _, _, _, rfl⟩)
  · rw [if_neg hrst]
    cases hstate : c.state with
    | established => exact .inl ⟨⟨rfl, by simpa using hrst⟩, rfl⟩
    | synSent =>
      right; right
      dsimp only
      split_ifs
      · exact ⟨⟨_, _, _, _, _, _, _, _, rfl⟩, .inr trivial⟩
      · exact ⟨.refl _, .inl rfl⟩
    | synRcvd =>
      right; right
      dsimp only
      split_ifs
      · exact ⟨⟨_, _, _, _, _, _, _, _, rfl⟩, .inr trivial⟩
      · exact ⟨.refl _, .inl rfl⟩
    | finWait1 =>
      right; right
      dsimp only [enterTimeWait]
      split_ifs
      · exact ⟨⟨_, _, _, _, _, _, _, _, rfl⟩, .inr trivial⟩
      · exact ⟨⟨_, _, _, _, _, _, _, _, rfl⟩, .inr trivial⟩
      · exact ⟨.refl _, .inl rfl⟩
      · exact ⟨⟨_, _, _, _, _, _, _, _, rfl⟩, .inr trivial⟩
      · exact ⟨.refl _, .inl rfl⟩
    | finWait2 =>
      right; right
      dsimp only [enterTimeWait]
      split_ifs
      · exact ⟨⟨_, _, _, _, _, _, _, _, rfl⟩, .inr trivial⟩
      · exact ⟨.refl _, .inl rfl⟩
    | lastAck =>
      dsimp only
      split_ifs
      · exact .inr (.inl ⟨_, _, _, _, rfl⟩)
      · exact .inr (.inr ⟨.refl _, .inl rfl⟩)
    | closed => exact .inr (.inr ⟨.refl _, .inl rfl⟩)
    | listen => exact .inr (.inr ⟨.refl _, .inl rfl⟩)
    | closeWait => exact .inr (.inr ⟨.refl _, .inl rfl⟩)
    | timeWait => exact .inr (.inr ⟨.refl _, .inl rfl⟩)

theorem readRx_frame (n : Nat) : ∃ rxHead, (readRx lim n c).2 = { c with rxHead := rxHead } := by
  induction n generalizing c with
  | zero => exact ⟨c.rxHead, rfl⟩
  | succ n ih =>
    obtain ⟨rxHead, heq⟩ := ih { c with rxHead := (c.rxHead + 1) &&& lim.bufMask }
    exact ⟨rxHead, heq⟩

theorem recv_frame (len : Nat) : ∃ rxHead, (c.recv lim len).2.1 = { c with rxHead := rxHead } := by
  unfold recv
  dsimp only
  split_ifs
  · exact ⟨c.rxHead, rfl⟩
  · exact ⟨c.rxHead, rfl⟩
  · exact readRx_frame lim c _
  · exact readRx_frame lim c _

/-- `send_data` changes nothing, or hands over a segment that it keeps. -/
theorem sendData_cases (now : Nat) (linkOk : Bool) (data : Bytes) :
    (c.sendData lim now linkOk data).2 = (c, []) ∨
    c.state = .established ∧ ∃ n, 0 < n ∧ n ≤ data.length ∧ n ≤ TCP_MSS ∧
      c.sendData lim now linkOk data =
        (some n,
          { c with
            seq := c.seq + UInt32.ofNat n
            retxBuf := data.take n
            retxLen := n
            retxSeq := c.seq
            retxTime := now
            retxCount := 0
            unacked := true
            lastActivity := now },
          [c.emit lim TCP_ACK c.seq c.ack (data.take n)]) := by
  unfold sendData
  by_cases hstate : c.state = .established
  · rw [if_neg (not_not.mpr hstate)]
    by_cases hwindow : c.remoteWindow = 0
    · rw [if_pos hwindow]
      exact .inl rfl
    · rw [if_neg hwindow]
      dsimp only
      split_ifs with hzero
      · exact .inl rfl
      · exact .inl rfl
      · exact .inr ⟨hstate, _, Nat.pos_of_ne_zero hzero, Nat.min_le_right _ _,
          (Nat.min_le_left _ _).trans (Nat.min_le_right _ _), rfl⟩
  · rw [if_pos hstate]
    exact .inl rfl

/-- What a tick does to the timer of the retransmission. -/
theorem tickConn_cases (now : Nat) :
    (∃ retxLen retxCount wasAccepted,
      (c.tickConn lim now).1 =
        { c with
          state := .closed
          unacked := false
          retxLen := retxLen
          retxCount := retxCount
          wasAccepted := wasAccepted }) ∨
    (c.state = .synSent ∨ c.state = .synRcvd) ∧
      (∃ retxCount, (c.tickConn lim now).1 = { c with retxCount := retxCount, retxTime := now }) ∨
    (c.state ≠ .closed ∧ c.unacked = true ∧ c.retxCount < RETX_MAX_ATTEMPTS) ∧
      (∃ rtoTicks ssthresh cwnd, rtoTicks ≤ RTO_MAX ∧
        (c.tickConn lim now).1 =
          { c with
            retxCount := c.retxCount + 1
            retxTime := now
            rtoTicks := rtoTicks
            ssthresh := ssthresh
            cwnd := cwnd }) ∨
    (c.unacked = true → c.state ≠ .closed → c.state ≠ .listen → c.state ≠ .synSent →
        c.state ≠ .synRcvd → now - c.retxTime < c.rtoTicks) ∧
      (∃ keepaliveProbes lastActivity, (c.tickConn lim now).1 =
        { c with keepaliveProbes := keepaliveProbes, lastActivity := lastActivity }) := by
  have hclamp : (if c.rtoTicks * 2 > RTO_MAX then RTO_MAX else c.rtoTicks * 2) ≤ RTO_MAX := by
    split_ifs with h
    · exact le_rfl
    · exact Nat.le_of_not_lt h
  unfold tickConn
  by_cases hoff : c.state = .closed ∨ c.state = .listen
  · rw [if_pos hoff]
    exact .inr (.inr (.inr ⟨fun _ h h' => (hoff.elim h h').elim, _, _, rfl⟩))
  · rw [if_neg hoff]
    by_cases hsyn : c.state = .synSent ∨ c.state = .synRcvd
    · rw [if_pos hsyn]
      unfold tickHandshake
      by_cases hdue : now - c.retxTime ≥ SYN_RETRY_INTERVAL
      · rw [if_pos hdue]
        by_cases hspent : c.retxCount ≥ SYN_MAX_RETRIES
        · rw [if_pos hspent]
          exact .inl ⟨_, _, _, rfl⟩
        · rw [if_neg hspent]
          exact .inr (.inl ⟨hsyn, _, rfl⟩)
      · rw [if_neg hdue]
        exact .inr (.inr (.inr ⟨fun _ _ _ h h' => (hsyn.elim h h').elim, _, _, rfl⟩))
    · rw [if_neg hsyn]
      by_cases hretx : c.unacked = true ∧ now - c.retxTime ≥ c.rtoTicks
      · rw [if_pos hretx]
        unfold retransmit
        by_cases hspent : c.retxCount ≥ RETX_MAX_ATTEMPTS
        · rw [if_pos hspent]
          exact .inl ⟨_, _, _, rfl⟩
        · have hcount : satAdd8 c.retxCount 1 = c.retxCount + 1 :=
            Nat.min_eq_left (by unfold RETX_MAX_ATTEMPTS at hspent; omega)
          rw [if_neg hspent, hcount]
          exact .inr (.inr (.inl
            ⟨⟨fun h => hoff (.inl h), hretx.1, Nat.lt_of_not_le hspent⟩, _, _, _, hclamp, rfl⟩))
      · rw [if_neg hretx]
        have hearly : c.unacked = true → now - c.retxTime < c.rtoTicks := fun h =>
          Nat.lt_of_not_le fun h' => hretx ⟨h, h'⟩
        by_cases htime : c.state = .timeWait
        · rw [if_pos htime]
          split_ifs
          · exact .inl ⟨_, _, _, rfl⟩
          · exact .inr (.inr (.inr ⟨fun h _ _ _ _ => hearly h, _, _, rfl⟩))
        · rw [if_neg htime]
          unfold keepAlive
          split_ifs
          · exact .inl ⟨_, _, _, rfl⟩
          · exact .inr (.inr (.inr ⟨fun h _ _ _ _ => hearly h, _, _, rfl⟩))
          · exact .inr (.inr (.inr ⟨fun h _ _ _ _ => hearly h, _, _, rfl⟩))
          · exact .inr (.inr (.inr ⟨fun h _ _ _ _ => hearly h, _, _, rfl⟩))

end Frames

end TcpConn

/-! ## The layer -/

/-- `TcpLayer`. -/
structure TcpLayer (lim : Limits) where
  conns : Fin lim.maxConns → TcpConn
  ourIp : UInt32

namespace TcpLayer

variable {lim : Limits} (t : TcpLayer lim)

/-- The layer after `init`. -/
def init (lim : Limits) (ip : UInt32) : TcpLayer lim := ⟨fun _ => .new, ip⟩

def set (i : Fin lim.maxConns) (c : TcpConn) : TcpLayer lim :=
  { t with conns := Function.update t.conns i c }

/-- `find_conn`. -/
def findConn (localPort : UInt16) (remoteIp : UInt32) (remotePort : UInt16) :
    Option (Fin lim.maxConns) :=
  (List.finRange lim.maxConns).find? fun i =>
    (t.conns i).state ≠ .closed && (t.conns i).localPort = localPort &&
      (t.conns i).remoteIp = remoteIp && (t.conns i).remotePort = remotePort

/-- `find_listener`. -/
def findListener (port : UInt16) : Option (Fin lim.maxConns) :=
  (List.finRange lim.maxConns).find? fun i =>
    (t.conns i).state = .listen && (t.conns i).localPort = port

/-- `alloc`. -/
def alloc : Option (Fin lim.maxConns) :=
  (List.finRange lim.maxConns).find? fun i => (t.conns i).state = .closed

/-- `listen`. -/
def listen (port : UInt16) : TcpLayer lim :=
  match t.alloc with
  | none => t
  | some i =>
    t.set i { t.conns i with
      state := .listen, localIp := t.ourIp, localPort := port, remoteIp := 0, remotePort := 0 }

/-- `connect`. -/
def connect (now : Nat) (isn dstIp : UInt32) (dstPort srcPort : UInt16) : TcpLayer lim :=
  match t.alloc with
  | none => t
  | some i => t.set i ((t.conns i).activeOpen lim now isn t.ourIp dstIp dstPort srcPort)

/-- `accept`. -/
def accept (port : UInt16) : TcpLayer lim :=
  match (List.finRange lim.maxConns).find? fun i =>
      (t.conns i).state = .established && (t.conns i).localPort = port &&
        !(t.conns i).wasAccepted with
  | none => t
  | some i => t.set i { t.conns i with wasAccepted := true }

/-- The half-open connections of a listener. -/
def halfOpen (port : UInt16) : Nat :=
  ((List.finRange lim.maxConns).filter fun i =>
    (t.conns i).state = .synRcvd && (t.conns i).localPort = port).length

/-- `handle`. -/
def handle (now : Nat) (isn : UInt32) (seg : Segment) : TcpLayer lim :=
  match t.findConn seg.dstPort seg.srcIp seg.srcPort with
  | some i => t.set i ((t.conns i).handleConn lim now seg).1
  | none =>
    match t.findListener seg.dstPort with
    | none => t
    | some _ =>
      if !seg.has TCP_SYN then t
      else if t.halfOpen seg.dstPort ≥ lim.maxConns / 2 then t
      else
        match t.alloc with
        | none => t
        | some i => t.set i ((t.conns i).passiveOpen lim now isn t.ourIp seg)

/-- `tcp_tick`. -/
def tick (now : Nat) : TcpLayer lim :=
  { t with conns := fun i => ((t.conns i).tickConn lim now).1 }

end TcpLayer

/-- A call on the layer, with the clock at the call. -/
inductive Op (lim : Limits) where
  | listen (port : UInt16)
  | connect (now : Nat) (isn dstIp : UInt32) (dstPort srcPort : UInt16)
  | accept (port : UInt16)
  | send (i : Fin lim.maxConns) (now : Nat) (linkOk : Bool) (data : Bytes)
  | recv (i : Fin lim.maxConns) (len : Nat)
  | close (i : Fin lim.maxConns)
  | handle (now : Nat) (isn : UInt32) (seg : Segment)
  | tick (now : Nat)

/-- The connection that a call of the application names. -/
def Op.slot {lim : Limits} : Op lim → Option (Fin lim.maxConns)
  | .send i _ _ _ => some i
  | .recv i _ => some i
  | .close i => some i
  | _ => none

/-- The layer after a call. -/
def step {lim : Limits} (t : TcpLayer lim) : Op lim → TcpLayer lim
  | .listen port => t.listen port
  | .connect now isn dstIp dstPort srcPort => t.connect now isn dstIp dstPort srcPort
  | .accept port => t.accept port
  | .send i now linkOk data => t.set i ((t.conns i).sendData lim now linkOk data).2.1
  | .recv i len => t.set i ((t.conns i).recv lim len).2.1
  | .close i => t.set i ((t.conns i).close lim).1
  | .handle now isn seg => t.handle now isn seg
  | .tick now => t.tick now

/-- What a call does to one connection of the layer. -/
inductive Moves {lim : Limits} (t : TcpLayer lim) (i : Fin lim.maxConns) :
    Op lim → TcpConn → Prop where
  | stays (op : Op lim) (other : op.slot ≠ some i) : Moves t i op (t.conns i)
  | listen (port : UInt16) (closed : (t.conns i).state = .closed) :
      Moves t i (.listen port) { t.conns i with
        state := .listen, localIp := t.ourIp, localPort := port, remoteIp := 0, remotePort := 0 }
  | connect (now : Nat) (isn dstIp : UInt32) (dstPort srcPort : UInt16)
      (closed : (t.conns i).state = .closed) :
      Moves t i (.connect now isn dstIp dstPort srcPort)
        ((t.conns i).activeOpen lim now isn t.ourIp dstIp dstPort srcPort)
  | accept (port : UInt16) : Moves t i (.accept port) { t.conns i with wasAccepted := true }
  | send (now : Nat) (linkOk : Bool) (data : Bytes) :
      Moves t i (.send i now linkOk data) ((t.conns i).sendData lim now linkOk data).2.1
  | recv (len : Nat) : Moves t i (.recv i len) ((t.conns i).recv lim len).2.1
  | close : Moves t i (.close i) ((t.conns i).close lim).1
  | segment (now : Nat) (isn : UInt32) (seg : Segment)
      (found : t.findConn seg.dstPort seg.srcIp seg.srcPort = some i) :
      Moves t i (.handle now isn seg) ((t.conns i).handleConn lim now seg).1
  | syn (now : Nat) (isn : UInt32) (seg : Segment) (closed : (t.conns i).state = .closed)
      (isSyn : seg.has TCP_SYN = true) :
      Moves t i (.handle now isn seg) ((t.conns i).passiveOpen lim now isn t.ourIp seg)
  | tick (now : Nat) : Moves t i (.tick now) ((t.conns i).tickConn lim now).1

namespace TcpLayer

variable {lim : Limits} (t : TcpLayer lim)

theorem set_conns (i j : Fin lim.maxConns) (c : TcpConn) :
    (t.set i c).conns j = if j = i then c else t.conns j :=
  Function.update_apply _ _ _ _

theorem state_alloc {i : Fin lim.maxConns} (h : t.alloc = some i) :
    (t.conns i).state = .closed := by
  have := List.find?_some h
  simpa using this

theorem findConn_spec {port : UInt16} {ip : UInt32} {peer : UInt16} {i : Fin lim.maxConns}
    (h : t.findConn port ip peer = some i) :
    (t.conns i).state ≠ .closed ∧ (t.conns i).localPort = port ∧ (t.conns i).remoteIp = ip ∧
      (t.conns i).remotePort = peer := by
  have := List.find?_some h
  simpa [and_assoc] using this

/-- A call that writes one connection does what it does to it, and leaves the others. -/
theorem moves_set {i j : Fin lim.maxConns} {op : Op lim} {c : TcpConn} (h : Moves t i op c)
    (hslot : j ≠ i → op.slot ≠ some j) : Moves t j op ((t.set i c).conns j) := by
  rw [set_conns]
  split_ifs with hij
  · exact hij ▸ h
  · exact .stays op (hslot hij)

end TcpLayer

theorem step_moves {lim : Limits} (t : TcpLayer lim) (op : Op lim) (j : Fin lim.maxConns) :
    Moves t j op ((step t op).conns j) := by
  have hnone : none ≠ some j := (Option.some_ne_none j).symm
  have hsome : ∀ i, j ≠ i → some i ≠ some j := fun i hij h => hij (Option.some.inj h).symm
  cases op with
  | listen port =>
    rw [step, TcpLayer.listen]
    cases halloc : t.alloc with
    | none => exact .stays _ hnone
    | some i => exact t.moves_set (.listen port (t.state_alloc halloc)) fun _ => hnone
  | connect now isn dstIp dstPort srcPort =>
    rw [step, TcpLayer.connect]
    cases halloc : t.alloc with
    | none => exact .stays _ hnone
    | some i =>
      exact t.moves_set (.connect now isn dstIp dstPort srcPort (t.state_alloc halloc))
        fun _ => hnone
  | accept port =>
    rw [step, TcpLayer.accept]
    split
    · exact .stays _ hnone
    · exact t.moves_set (.accept port) fun _ => hnone
  | send i now linkOk data => exact t.moves_set (.send now linkOk data) (hsome i)
  | recv i len => exact t.moves_set (.recv len) (hsome i)
  | close i => exact t.moves_set .close (hsome i)
  | handle now isn seg =>
    rw [step, TcpLayer.handle]
    cases hfind : t.findConn seg.dstPort seg.srcIp seg.srcPort with
    | some i => exact t.moves_set (.segment now isn seg hfind) fun _ => hnone
    | none =>
      cases t.findListener seg.dstPort with
      | none => exact .stays _ hnone
      | some l =>
        dsimp only
        split_ifs with hsyn
        · exact .stays _ hnone
        · exact .stays _ hnone
        · cases halloc : t.alloc with
          | none => exact .stays _ hnone
          | some i =>
            exact t.moves_set (.syn now isn seg (t.state_alloc halloc) (by simpa using hsyn))
              fun _ => hnone
  | tick now => exact .tick now

end RobotOs.Net
