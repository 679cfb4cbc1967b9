import ADS131A0X.Base.Machine
import ADS131A0X.Base.RingBuffer

/-!
# The driver of the JTAG UART

What the software prints and reads goes through two ring buffers. `altera_avalon_jtag_uart_write` puts
bytes into one and `altera_avalon_jtag_uart_read` takes them out of the other, while
`altera_avalon_jtag_uart_irq` serves the other ends when the device interrupts. The interrupt routine
can run between any two accesses of a call to the shared variables, also in the middle of a `memcpy`.

## Main definitions

* `JtagUart`: the variables that the calls and the interrupt routine share
* `JtagUart.Write`, `JtagUart.Read`: the calls, and their steps
* `JtagUartSystem`, `JtagUartSystem.step`: the driver, the device, and one step of one of them

## Implementation notes

The values that the device returns are arbitrary. An access to a shared variable or to the device is
one step, and so is a section with interrupts disabled. Nothing interrupts the interrupt routine, nor
the alarm that looks for the host. A buffer with its length is a list.
-/

namespace ADS131A0X

open Transition

/-- `altera_avalon_jtag_uart_state`. -/
structure JtagUart where
  timeout : ℕ
  irqEnable : BitVec 32
  hostInactive : ℕ
  rxIn : ℕ
  rxOut : ℕ
  txIn : ℕ
  txOut : ℕ
  rxBuf : ℕ → BitVec 8
  txBuf : ℕ → BitVec 8

namespace JtagUart

/-! ## Constants -/

def bufLen : ℕ := 2048
def intMax : ℕ := 0x7FFFFFFF

def controlReMsk : BitVec 32 := 0x1#32
def controlWeMsk : BitVec 32 := 0x2#32
def controlRiMsk : BitVec 32 := 0x100#32
def controlWiMsk : BitVec 32 := 0x200#32
def controlAcMsk : BitVec 32 := 0x400#32
def controlWspaceMsk : BitVec 32 := 0xFFFF0000#32
def dataDataMsk : BitVec 32 := 0xFF#32
def dataRvalidMsk : BitVec 32 := 0x8000#32
def dataRavailMsk : BitVec 32 := 0xFFFF0000#32

/-- The state after `altera_avalon_jtag_uart_init`; the timeout depends on whether an alarm can be
started. -/
def init (timeout : ℕ) : JtagUart where
  timeout
  irqEnable := controlReMsk
  hostInactive := 0
  rxIn := 0
  rxOut := 0
  txIn := 0
  txOut := 0
  rxBuf := fun _ => 0#8
  txBuf := fun _ => 0#8

/-- The error codes. -/
inductive Errno
  | ewouldblock
  | eio
  deriving DecidableEq, Repr

/-! ## Writing -/

/-- The places in `altera_avalon_jtag_uart_write`. -/
inductive Write.Place
  | space
  | copy (n k : ℕ)
  | kick
  | wait
  | host
  | done
  deriving DecidableEq, Repr

/-- A call of `altera_avalon_jtag_uart_write`: its buffer, the distance from `start` to `ptr`, and the
other local variables. -/
structure Write where
  place : Write.Place
  data : List (BitVec 8)
  nonblock : Bool
  ptr : ℕ
  inIdx : ℕ
  outIdx : ℕ
  deriving DecidableEq, Repr

namespace Write

/-- A call of the function. -/
def call (data : List (BitVec 8)) (nonblock : Bool) : Write where
  place := .space
  data
  nonblock
  ptr := 0
  inIdx := 0
  outIdx := 0

/-- The number of bytes that are left. -/
def count (w : Write) : ℕ := w.data.length - w.ptr

/-- How many bytes fit in without going around the end of the buffer. -/
def room (sp : JtagUart) : ℕ :=
  if sp.txIn < sp.txOut then sp.txOut - 1 - sp.txIn
  else if 0 < sp.txOut then bufLen - sp.txIn
  else bufLen - 1 - sp.txIn

/-- One step of the call. -/
def next (sp : JtagUart) (w : Write) : JtagUart × Write :=
  match w.place with
  | .space =>
    if w.count = 0 then (sp, { w with place := .kick })
    else
      let w' := { w with inIdx := sp.txIn, outIdx := sp.txOut }
      if room sp = 0 then (sp, { w' with place := .kick })
      else (sp, { w' with place := .copy (min (room sp) w.count) 0 })
  | .copy n k =>
    -- one byte of the `memcpy`
    if k < n then
      ({ sp with txBuf := Function.update sp.txBuf (w.inIdx + k) (w.data.getD (w.ptr + k) 0#8) },
        { w with place := .copy n (k + 1) })
    else ({ sp with txIn := (w.inIdx + n) % bufLen }, { w with ptr := w.ptr + n, place := .space })
  -- with interrupts disabled
  | .kick =>
    ({ sp with irqEnable := sp.irqEnable ||| controlWeMsk },
      { w with place := if w.count = 0 ∨ w.nonblock = true then .done else .wait })
  | .wait =>
    (sp, if w.outIdx = sp.txOut ∧ sp.hostInactive < sp.timeout then w
      else { w with place := .host })
  | .host => (sp, { w with place := if sp.hostInactive = 0 then .space else .done })
  | .done => (sp, w)

/-- What the call returns. -/
def result (w : Write) : Except Errno ℕ :=
  if w.ptr ≠ 0 then .ok w.ptr
  else if w.nonblock then .error .ewouldblock
  else .error .eio

end Write

/-! ## Reading -/

/-- The places in `altera_avalon_jtag_uart_read`. -/
inductive Read.Place
  | load
  | copy (n k : ℕ)
  | spin
  | recheck
  | enable
  | done
  deriving DecidableEq, Repr

/-- A call of `altera_avalon_jtag_uart_read`: the bytes from `buffer` to `ptr`, what the last `memcpy`
has copied after them, and the other local variables. -/
structure Read where
  place : Read.Place
  space : ℕ
  nonblock : Bool
  buffer : List (BitVec 8)
  chunk : List (BitVec 8)
  inIdx : ℕ
  outIdx : ℕ
  deriving DecidableEq, Repr

namespace Read

/-- A call of the function. -/
def call (space : ℕ) (nonblock : Bool) : Read where
  place := if 0 < space then .load else .done
  space
  nonblock
  buffer := []
  chunk := []
  inIdx := 0
  outIdx := 0

/-- How many bytes there are up to the end of the buffer. -/
def avail (sp : JtagUart) : ℕ :=
  if sp.rxOut ≤ sp.rxIn then sp.rxIn - sp.rxOut else bufLen - sp.rxOut

/-- The end of the inner loop. -/
def leave (r : Read) : Read :=
  { r with place := if r.buffer ≠ [] then .enable else if r.nonblock then .done else .spin }

/-- One step of the call. -/
def next (sp : JtagUart) (r : Read) : JtagUart × Read :=
  match r.place with
  | .load =>
    let r' := { r with inIdx := sp.rxIn, outIdx := sp.rxOut }
    if avail sp = 0 then (sp, r'.leave)
    else (sp, { r' with chunk := [], place := .copy (min (avail sp) r.space) 0 })
  | .copy n k =>
    -- one byte of the `memcpy`
    if k < n then
      (sp, { r with chunk := r.chunk ++ [sp.rxBuf (r.outIdx + k)], place := .copy n (k + 1) })
    else
      let r' := { r with buffer := r.buffer ++ r.chunk, space := r.space - n }
      ({ sp with rxOut := (r.outIdx + n) % bufLen },
        if 0 < r'.space then { r' with place := .load } else r'.leave)
  | .spin =>
    (sp, if r.inIdx = sp.rxIn ∧ sp.hostInactive < sp.timeout then r
      else { r with place := .recheck })
  | .recheck => (sp, { r with place := if r.inIdx = sp.rxIn then .done else .load })
  -- with interrupts disabled
  | .enable =>
    ({ sp with irqEnable := sp.irqEnable ||| controlReMsk }, { r with place := .done })
  | .done => (sp, r)

/-- What the call returns. -/
def result (r : Read) : Except Errno ℕ :=
  if r.buffer ≠ [] then .ok r.buffer.length
  else if r.nonblock then .error .ewouldblock
  else .error .eio

end Read

/-! ## The interrupt routine -/

/-- The places in `altera_avalon_jtag_uart_irq`, with its local variables. -/
inductive Irq
  | idle
  | control
  | receive (control data : BitVec 32)
  | received (control data : BitVec 32)
  | transmit (space : ℕ)
  | transmitted (space : ℕ)
  deriving DecidableEq, Repr

/-- The field `WSPACE` of the control register. -/
def wspace (control : BitVec 32) : ℕ := ((control &&& controlWspaceMsk) >>> 16).toNat

/-- The part of the loop after the read interrupt. -/
def Irq.afterReceive (control : BitVec 32) : Irq :=
  if control &&& controlWiMsk ≠ 0#32 then .transmit (wspace control) else .control

/-- A call of one of the two functions. -/
inductive Call
  | write (w : Write)
  | read (r : Read)
  deriving DecidableEq, Repr

namespace Call

/-- The bytes of the caller that a call has put into the ring buffer. -/
def accepted : Call → List (BitVec 8)
  | .write w => w.data.take w.ptr
  | .read _ => []

/-- The bytes that a call has given to the caller. -/
def delivered : Call → List (BitVec 8)
  | .write _ => []
  | .read r => r.buffer

end Call

end JtagUart

open JtagUart

/-! ## The system -/

/-- The driver with the call under way and those that have returned, the value last written to the
control register of the device, and the bytes that have passed its data register. -/
structure JtagUartSystem where
  sp : JtagUart
  irq : Irq
  call : Option Call
  returned : List Call
  control : BitVec 32
  sent : List (BitVec 8)
  received : List (BitVec 8)

namespace JtagUartSystem

/-- One step of something: a call begins, it takes a step, the interrupt routine begins or takes a step
in which a read of the device would give `value`, or the alarm goes off. -/
inductive Event
  | write (data : List (BitVec 8)) (nonblock : Bool)
  | read (space : ℕ) (nonblock : Bool)
  | call
  | interrupt
  | irq (value : BitVec 32)
  | alarm (value : BitVec 32)
  deriving DecidableEq, Repr

variable (s : JtagUartSystem)

/-- A step of the call under way, or its return. -/
def stepCall : JtagUartSystem :=
  match s.call with
  | none => s
  | some (.write w) =>
    if w.place = .done then { s with call := none, returned := s.returned ++ [.write w] }
    else { s with
      sp := (w.next s.sp).1
      call := some (.write (w.next s.sp).2)
      control := if w.place = .kick then (w.next s.sp).1.irqEnable else s.control }
  | some (.read r) =>
    if r.place = .done then { s with call := none, returned := s.returned ++ [.read r] }
    else { s with
      sp := (r.next s.sp).1
      call := some (.read (r.next s.sp).2)
      control := if r.place = .enable then (r.next s.sp).1.irqEnable else s.control }

/-- A step of the interrupt routine. -/
def stepIrq (value : BitVec 32) : JtagUartSystem :=
  match s.irq with
  | .idle => s
  | .control =>
    -- return once nothing more to do
    if value &&& (controlRiMsk ||| controlWiMsk) = 0#32 then { s with irq := .idle }
    else if value &&& controlRiMsk ≠ 0#32 then { s with irq := .receive value (1#32 <<< 16) }
    else { s with irq := Irq.afterReceive value }
  | .receive control data =>
    -- without space nothing may be read, as it would be lost
    if (s.sp.rxIn + 1) % bufLen = s.sp.rxOut then { s with irq := .received control data }
    else if value &&& dataRvalidMsk = 0#32 then { s with irq := .received control value }
    else
      let byte := (value &&& dataDataMsk).setWidth 8
      { s with
        sp := { s.sp with
          rxBuf := Function.update s.sp.rxBuf s.sp.rxIn byte
          rxIn := (s.sp.rxIn + 1) % bufLen }
        irq := .receive control value
        received := s.received ++ [byte] }
  | .received control data =>
    if data &&& dataRavailMsk ≠ 0#32 then
      { s with
        sp := { s.sp with irqEnable := s.sp.irqEnable &&& ~~~controlReMsk }
        control := s.sp.irqEnable &&& ~~~controlReMsk
        irq := Irq.afterReceive control }
    else { s with irq := Irq.afterReceive control }
  | .transmit space =>
    if 0 < space ∧ s.sp.txOut ≠ s.sp.txIn then
      { s with
        sp := { s.sp with txOut := (s.sp.txOut + 1) % bufLen }
        irq := .transmit (space - 1)
        sent := s.sent ++ [s.sp.txBuf s.sp.txOut] }
    else { s with irq := .transmitted space }
  | .transmitted space =>
    if 0 < space then
      { s with
        sp := { s.sp with irqEnable := s.sp.irqEnable &&& ~~~controlWeMsk }
        control := s.sp.irqEnable &&& ~~~controlWeMsk
        irq := .control }
    else { s with irq := .control }

/-- The alarm: `altera_avalon_jtag_uart_timeout`. -/
def stepAlarm (value : BitVec 32) : JtagUartSystem :=
  if value &&& controlAcMsk ≠ 0#32 then
    { s with
      sp := { s.sp with hostInactive := 0 }
      control := s.sp.irqEnable ||| controlAcMsk }
  else if s.sp.hostInactive < intMax - 2 then
    { s with sp := { s.sp with hostInactive := s.sp.hostInactive + 1 } }
  else s

/-- One step. The interrupt routine keeps everything else from running. -/
def step (e : Event) : JtagUartSystem :=
  match e with
  | .irq value => s.stepIrq value
  | .write data nonblock =>
    if s.irq = .idle ∧ s.call = none then { s with call := some (.write (.call data nonblock)) }
    else s
  | .read space nonblock =>
    if s.irq = .idle ∧ s.call = none then { s with call := some (.read (.call space nonblock)) }
    else s
  | .call => if s.irq = .idle then s.stepCall else s
  | .interrupt => if s.irq = .idle then { s with irq := .control } else s
  | .alarm value => if s.irq = .idle then s.stepAlarm value else s

/-- The system after the initialization. -/
def machine (timeout : ℕ) : Machine Event JtagUartSystem where
  init :=
    { sp := JtagUart.init timeout
      irq := .idle
      call := none
      returned := []
      control := controlReMsk
      sent := []
      received := [] }
  step := step

/-- A run of the system from its initialization on. -/
structure Run where
  timeout : ℕ
  event : ℕ → Event

/-- The system after the first `n` steps of the run. -/
def Run.system (ρ : Run) : ℕ → JtagUartSystem := (machine ρ.timeout).run ρ.event

theorem Run.system_succ (ρ : Run) (n : ℕ) : ρ.system (n + 1) = (ρ.system n).step (ρ.event n) :=
  Machine.run_succ _ _ n

/-- All bytes that the calls have put into the ring buffer, in order. -/
def accepted : List (BitVec 8) :=
  s.returned.flatMap Call.accepted ++ s.call.elim [] Call.accepted

/-- All bytes that the calls have given to their callers, in order. -/
def delivered : List (BitVec 8) :=
  s.returned.flatMap Call.delivered ++ s.call.elim [] Call.delivered

/-- The bytes that wait to be sent. -/
def txRing : List (BitVec 8) := RingBuffer.contents bufLen s.sp.txBuf s.sp.txIn s.sp.txOut

/-- The bytes that wait to be read. -/
def rxRing : List (BitVec 8) := RingBuffer.contents bufLen s.sp.rxBuf s.sp.rxIn s.sp.rxOut

end JtagUartSystem

end ADS131A0X
