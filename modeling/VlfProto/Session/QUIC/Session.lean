import VlfProto.Session.QUIC.Step

/-!
# One QUIC session of the gateway as a step system

A frame write and a section under a mutex are one step; a read, write or dial that blocks is
a step that has not been taken. The two counters of the datagram queue are changed in steps of
their own, after the channel operation they count.
-/
namespace VlfProto.Session
open Platform Transition

namespace QUICSession

/-- `acceptFlowStreams`; an error after the session is cancelled ends it quietly. -/
def acceptorStep (s : QUICSession) (ok : Bool) : Option QUICSession :=
  match s.acceptor with
  | .accept =>
    if ok then
      if s.cancelled ∨ s.connClosed then none
      else some { s.setHandler s.accepted .readID with
        accepted := s.accepted + 1
        wg := s.wg + 1 }
    else some { s with acceptor := if s.cancelled then .exiting else .closing }
  | .closing =>
    (s.closeStep .acceptor).map fun r => if r.2 then { r.1 with acceptor := .exiting } else r.1
  | .exiting => some { s with wg := s.wg - 1, acceptor := .stopped }
  | .notStarted => none
  | .stopped => none

/-- `pingLoop`, which waits for its ticker or for the end of the session. -/
def pingerStep (s : QUICSession) (ok : Bool) : Option QUICSession :=
  match s.pinger with
  | .wait =>
    if ok then some { s with pinger := .write }
    else if s.cancelled then some { s with pinger := .exiting }
    else none
  | .write => (s.writeFrame .ping ok).map fun s => { s with pinger := .wait }
  | .exiting => some { s with wg := s.wg - 1, pinger := .stopped }
  | .notStarted => none
  | .stopped => none

def streamStep (s : QUICSession) (i : ℕ) (flowID : Option UInt64) (ok : Bool) :
    Option QUICSession :=
  match (s.streams i).handler with
  | .readID =>
    some (s.setHandler i (flowID.elim .closeStream fun flowID => .lookup flowID.toNat))
  | .lookup flowID =>
    some (s.setHandler i ((s.tcpFlows.lookup flowID).elim .closeStream .attach))
  | .closeStream => some ((s.closeStream i).setHandler i .exiting)
  | .attach k =>
    if (s.tcp k).stream.isSome then some (s.setHandler i .closeStream)
    else some ((s.setTCP k { s.tcp k with stream := some i }).setHandler i (.pump k))
  | .pump k => some (s.setStream i
      { s.streams i with flow := k, handler := .await k, upload := .read, download := .read })
  | .await k =>
    match (s.streams i).errCh with
    | [] => none
    | result :: rest => some (s.setStream i { s.streams i with
        errCh := rest
        handler := if result = .limited then .closing
          else .closeFlow k (.delete (s.tcp k).id true) })
  | .closing => (s.closeStep (.stream i)).map fun r =>
    if r.2 then r.1.setHandler i .exiting else r.1
  | .closeFlow k pc => (s.closeFlowStep (.stream i) ok pc).map fun r =>
    r.1.setHandler i (r.2.elim .exiting (.closeFlow k))
  | .exiting => some ({ s with wg := s.wg - 1 }.setHandler i .stopped)
  | .notAccepted => none
  | .stopped => none

def copyPc (s : QUICSession) (i : ℕ) : CopyDirection → CopyPc
  | .upload => (s.streams i).upload
  | .download => (s.streams i).download

def setCopy (s : QUICSession) (i : ℕ) (dir : CopyDirection) (pc : CopyPc) : QUICSession :=
  match dir with
  | .upload => s.setStream i { s.streams i with upload := pc }
  | .download => s.setStream i { s.streams i with download := pc }

/-- Reads fail from here on; closing a stream ends only what is written to it. -/
def sourceClosed (s : QUICSession) (i : ℕ) : CopyDirection → Bool
  | .upload => s.connClosed
  | .download => (s.tcp (s.streams i).flow).targetClosed

def sinkClosed (s : QUICSession) (i : ℕ) : CopyDirection → Bool
  | .upload => (s.tcp (s.streams i).flow).targetClosed
  | .download => s.connClosed || (s.streams i).closed

def deliver (s : QUICSession) (i : ℕ) (dir : CopyDirection) (data : Bytes) : QUICSession :=
  match dir with
  | .upload =>
    let k := (s.streams i).flow
    s.setTCP k { s.tcp k with written := (s.tcp k).written ++ data }
  | .download => s.setStream i { s.streams i with written := (s.streams i).written ++ data }

def afterCopy : ReadEnd → CopyPc
  | .more => .read
  | .eof => .send .ended
  | .failed => .send .failed

/-- One action of a copying goroutine of `pumpTCPFlow`. -/
def copyStep (s : QUICSession) (i : ℕ) (dir : CopyDirection) (data : Bytes) (readEnd : ReadEnd)
    (ok : Bool) (n : ℕ) (now : ℤ) : Option QUICSession :=
  match s.copyPc i dir with
  | .read =>
    if data.length ≤ TCPSession.readBufSize ∧
        (s.sourceClosed i dir → data = [] ∧ readEnd = .failed) then
      some (s.setCopy i dir (if data = [] then afterCopy readEnd else .limit data readEnd))
    else none
  | .limit data readEnd =>
    let r := s.limits.allowSessionBytes s.id data.length now
    some ({ s with limits := r.1 }.setCopy i dir
      (if r.2.isSome then .send .limited else .write data readEnd))
  | .write data readEnd =>
    if ok ∧ s.sinkClosed i dir then none
    else some ((s.deliver i dir (if ok then data else data.take n)).setCopy i dir
      (if ok then afterCopy readEnd else .send .failed))
  | .send result => some ((s.setStream i { s.streams i with
      errCh := (s.streams i).errCh ++ [result] }).setCopy i dir .stopped)
  | .notStarted => none
  | .stopped => none

def udpBufSize : ℕ := 64 * 1024

/-- What `udpReadLoop` does about the error of a read. -/
def afterUDPRead (failed : Bool) : UDPReadPc := if failed then .checkDone else .read

def udpReadStep (s : QUICSession) (k : ℕ) (data : Bytes) (failed ok : Bool) (now : ℤ) :
    Option QUICSession :=
  match (s.udp k).reader with
  | .read =>
    if data.length ≤ udpBufSize ∧ ((s.udp k).connClosed → data = [] ∧ failed) then
      some (s.setReader k (if data = [] then afterUDPRead failed else .limit data failed))
    else none
  | .limit data failed =>
    let r := s.limits.allowSessionBytes s.id data.length now
    some ({ s with limits := r.1 }.setReader k
      (if r.2.isSome then .closing else .fragment data failed))
  | .fragment data failed =>
    let seq := (s.udp k).seq + 1
    some (s.setUDP k { s.udp k with
      seq
      reader :=
        match fragmentDatagram (s.udp k).id.toUInt64 seq data s.cfg.maxDgramPayload.toNat with
        | .ok packets => .send packets failed
        | .error _ => .closeFlow (.delete (s.udp k).id true) })
  | .send [] failed => some (s.setReader k (afterUDPRead failed))
  | .send (pkt :: rest) failed =>
    if ok then
      if s.connClosed then none
      else some ({ s with datagrams := s.datagrams ++ [pkt] }.setReader k (.send rest failed))
    else some (s.setReader k (.closeFlow (.delete (s.udp k).id true)))
  | .checkDone => some (s.setReader k
      (if s.cancelled then .exiting else .closeFlow (.delete (s.udp k).id true)))
  | .closing => (s.closeStep (.udpReader k)).map fun r =>
    if r.2 then r.1.setReader k .exiting else r.1
  | .closeFlow pc => (s.closeFlowStep (.udpReader k) ok pc).map fun r =>
    r.1.setReader k (r.2.elim .exiting .closeFlow)
  | .exiting => some ({ s with wg := s.wg - 1 }.setReader k .stopped)
  | .notStarted => none
  | .stopped => none

/-- One action on the counters: the shared one is clamped at zero, that of the
session by the workers only. -/
def countStep (s : QUICSession) (delta : ℤ) (clamps : Bool) :
    CounterPc → QUICSession × Option CounterPc
  | .addMetrics =>
    let current := s.metricsQueue + delta
    ({ s with metricsQueue := current }, some (if current < 0 then .clampMetrics else .addLen))
  | .clampMetrics => ({ s with metricsQueue := 0 }, some .addLen)
  | .addLen =>
    let current := s.datagramQLen + delta
    ({ s with datagramQLen := current }, if clamps ∧ current < 0 then some .clampLen else none)
  | .clampLen => ({ s with datagramQLen := 0 }, none)

def datagramReadStep (s : QUICSession) (raw : Option Bytes) (now : ℤ) : Option QUICSession :=
  match s.datagramReader with
  | .receive =>
    match raw with
    | none => some { s with datagramReader := .exiting }
    | some raw =>
      if s.cancelled ∨ s.connClosed then none
      else
        match decodeDatagramPacket raw with
        | .ok pkt => some { s with datagramReader := .limit pkt }
        | .error _ => some s
  | .limit pkt =>
    let r := s.limits.allowUDPPacket s.id now
    some { s with limits := r.1, datagramReader := if r.2 then .enqueue pkt else .receive }
  | .enqueue pkt =>
    let i := pkt.flowID.toNat % s.workerCount
    if (s.queues i).length < s.perWorker then
      some { s with
        queues := Function.update s.queues i (s.queues i ++ [pkt])
        datagramReader := .count .addMetrics }
    else some { s with datagramReader := .receive }
  | .count pc =>
    let r := s.countStep 1 false pc
    some { r.1 with datagramReader := r.2.elim .receive .count }
  | .exiting => some { s with wg := s.wg - 1, datagramReader := .stopped }
  | .notStarted => none
  | .stopped => none

/-- Take the next task of a worker. -/
def takeTask (s : QUICSession) (i : ℕ) (counted : DatagramPacket → WorkerPc) :
    Option QUICSession :=
  match s.queues i with
  | [] => none
  | pkt :: rest =>
    some ({ s with queues := Function.update s.queues i rest }.setWorker i (counted pkt))

/-- One action of `datagramWorkerLoop`, `drainDatagramQueue` and
`processDatagramTask`. The draining loop ends when its timer fires. -/
def workerStep (s : QUICSession) (i : ℕ) (ok : Bool) (now : ℤ) : Option QUICSession :=
  match s.workers i with
  | .receive =>
    if ok then s.takeTask i fun pkt => .count (some pkt) .addMetrics
    else if s.cancelled then some (s.setWorker i .drain)
    else none
  | .drain =>
    if ok then s.takeTask i fun _ => .count none .addMetrics else some (s.setWorker i .exiting)
  | .count task pc =>
    let r := s.countStep (-1) true pc
    some (r.1.setWorker i (r.2.elim (task.elim .drain .reassemble) (.count task)))
  | .reassemble pkt =>
    let r := s.reassembly.add now pkt
    some ({ s with reassembly := r.1 }.setWorker i (r.2.elim .receive (.limit pkt.flowID.toNat)))
  | .limit flowID payload =>
    let r := s.limits.allowSessionBytes s.id payload.length now
    some ({ s with limits := r.1 }.setWorker i
      (if r.2.isSome then .closing else .lookup flowID payload))
  | .lookup flowID payload => some (s.setWorker i
      ((s.udpFlows.lookup flowID).elim .receive fun k => .write k flowID payload))
  | .write k flowID payload =>
    if ok then
      if (s.udp k).connClosed then none
      else some ((s.setUDP k { s.udp k with
        written := (s.udp k).written ++ [payload] }).setWorker i .receive)
    else some (s.setWorker i (.closeFlow k (.delete flowID true)))
  | .closing => (s.closeStep (.worker i)).map fun r =>
    if r.2 then r.1.setWorker i .receive else r.1
  | .closeFlow k pc => (s.closeFlowStep (.worker i) ok pc).map fun r =>
    r.1.setWorker i (r.2.elim .receive (.closeFlow k))
  | .exiting => some ({ s with wg := s.wg - 1 }.setWorker i .stopped)
  | .notStarted => none
  | .stopped => none

def closerStep (s : QUICSession) (i : ℕ) : Option QUICSession :=
  match s.closers i with
  | .closing =>
    (s.closeStep (.closer i)).map fun r => if r.2 then r.1.setCloser i .returned else r.1
  | _ => none

def step (s : QUICSession) : QUICSessionStep → Option QUICSession
  | .run frame ok => s.runStep frame ok
  | .control frame ok => s.controlStep frame ok
  | .acceptor ok => s.acceptorStep ok
  | .pinger ok => s.pingerStep ok
  | .stream i flowID ok => s.streamStep i flowID ok
  | .copy i dir data readEnd ok n now => s.copyStep i dir data readEnd ok n now
  | .udpReader k data failed ok now => s.udpReadStep k data failed ok now
  | .datagramReader raw now => s.datagramReadStep raw now
  | .worker i ok now => s.workerStep i ok now
  | .callClose i =>
    if s.registered ∧ s.closers i = .idle then some (s.setCloser i .closing) else none
  | .closer i => s.closerStep i

end QUICSession
end VlfProto.Session
