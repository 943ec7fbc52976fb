import Modvm.Core.Errno
import Modvm.Lib.RingBuffer

/-! The 16550A serial port: register file, receive FIFO, software backlog and the
backpressure it applies to the host console.
-/

namespace Modvm.Uart

open Modvm.Lib

@[simp] abbrev uartFifoSize : Nat := 16
@[simp] abbrev uartBacklogSize : Nat := 256
@[simp] abbrev uartBacklogHighWatermark : Nat := 192
@[simp] abbrev uartBacklogLowWatermark : Nat := 64

abbrev ierMsi : Byte := 0x08#8
abbrev ierRlsi : Byte := 0x04#8
abbrev ierThri : Byte := 0x02#8
abbrev ierRdi : Byte := 0x01#8

abbrev iirNoInt : Byte := 0x01#8
abbrev iirId : Byte := 0x0e#8

abbrev fcrEnableFifo : Byte := 0x01#8
abbrev fcrClearRcvr : Byte := 0x02#8
abbrev fcrClearXmit : Byte := 0x04#8

abbrev lcrDlab : Byte := 0x80#8
abbrev lcrSbc : Byte := 0x40#8

abbrev mcrLoop : Byte := 0x10#8
abbrev mcrOut2 : Byte := 0x08#8
abbrev mcrOut1 : Byte := 0x04#8
abbrev mcrRts : Byte := 0x02#8
abbrev mcrDtr : Byte := 0x01#8

abbrev lsrTemt : Byte := 0x40#8
abbrev lsrThre : Byte := 0x20#8
abbrev lsrBi : Byte := 0x10#8
abbrev lsrFe : Byte := 0x08#8
abbrev lsrPe : Byte := 0x04#8
abbrev lsrOe : Byte := 0x02#8
abbrev lsrDr : Byte := 0x01#8
abbrev lsrBrkErrorBits : Byte := lsrBi ||| lsrFe ||| lsrPe ||| lsrOe

abbrev msrDcd : Byte := 0x80#8
abbrev msrRi : Byte := 0x40#8
abbrev msrDsr : Byte := 0x20#8
abbrev msrCts : Byte := 0x10#8
abbrev msrDdcd : Byte := 0x08#8
abbrev msrTeri : Byte := 0x04#8
abbrev msrDdsr : Byte := 0x02#8
abbrev msrDcts : Byte := 0x01#8
abbrev msrAnyDelta : Byte := msrDdcd ||| msrTeri ||| msrDdsr ||| msrDcts

/-- The host console: `binding` is the receiver's enabled flag, `output` everything handed to its
write.
-/
structure CharBackend where
  binding : Option Bool
  output : List Byte

/-- `struct uart_16550a_ctx`, each index/count triple as a `Ring`. `irqLevel` was last driven,
`errors` were reported; `drained` is a history variable: all that left the receive FIFO.
-/
structure Uart16550aCtx where
  console : Option CharBackend
  regShift : Nat
  dll : Byte
  dlm : Byte
  ier : Byte
  fcr : Byte
  lcr : Byte
  mcr : Byte
  lsr : Byte
  msr : Byte
  scr : Byte
  rx : Ring uartFifoSize Byte
  backlog : Ring uartBacklogSize Byte
  rxPaused : Bool
  tx : Ring uartFifoSize Byte
  rxTriggerLevel : Nat
  rxTimeout : Bool
  threIntPending : Bool
  irqLevel : Bool
  errors : List VmError
  drained : List Byte

namespace Uart16550aCtx

def has (register mask : Byte) : Bool :=
  register &&& mask != 0#8

def vmReportError (ctx : Uart16550aCtx) (error : VmError) : Uart16550aCtx :=
  { ctx with errors := ctx.errors ++ [error] }

def irqSetLevel (ctx : Uart16550aCtx) (level : Bool) : Uart16550aCtx :=
  { ctx with irqLevel := level }

end Uart16550aCtx

open Uart16550aCtx (has)

/-- `char_pause_rx_locked`: disable the bound receiver. -/
def charPauseRxLocked (dev : CharBackend) : Except VmError CharBackend :=
  match dev.binding with
  | none => .error .enotconn
  | some _ => .ok { dev with binding := some false }

/-- `char_resume_rx_locked`: enable the bound receiver. -/
def charResumeRxLocked (dev : CharBackend) : Except VmError CharBackend :=
  match dev.binding with
  | none => .error .enotconn
  | some _ => .ok { dev with binding := some true }

def uart16550aDlabIsSet (ctx : Uart16550aCtx) : Bool :=
  has ctx.lcr lcrDlab

def uart16550aLoopbackIsEnabled (ctx : Uart16550aCtx) : Bool :=
  has ctx.mcr mcrLoop

def uart16550aRxFifoClear (ctx : Uart16550aCtx) : Uart16550aCtx :=
  { ctx with
    drained := ctx.drained ++ ctx.rx.contents
    rx := ctx.rx.clear
    lsr := ctx.lsr &&& ~~~(lsrDr ||| lsrOe) }

def uart16550aTxFifoClear (ctx : Uart16550aCtx) : Uart16550aCtx :=
  { ctx with
    tx := ctx.tx.clear
    lsr := ctx.lsr ||| (lsrThre ||| lsrTemt)
    threIntPending := true }

/-- A byte arriving at a full FIFO only raises the overrun bit. -/
def uart16550aRxFifoPush (ctx : Uart16550aCtx) (c : Byte) : Uart16550aCtx :=
  if ctx.rx.cnt ≥ uartFifoSize then
    { ctx with lsr := ctx.lsr ||| lsrOe }
  else
    { ctx with rx := ctx.rx.put c, lsr := ctx.lsr ||| lsrDr }

/-- The transfer loop of `uart_16550a_rx_fifo_refill`; each round fills one FIFO slot. -/
def refillLoop : Nat → Uart16550aCtx → Bool → Uart16550aCtx × Bool
  | 0, ctx, pushed => (ctx, pushed)
  | rounds + 1, ctx, pushed =>
      if 0 < ctx.backlog.cnt ∧ ctx.rx.cnt < uartFifoSize then
        let next := uart16550aRxFifoPush ctx ctx.backlog.front
        refillLoop rounds { next with backlog := next.backlog.take } true
      else
        (ctx, pushed)

def resumeIfDrained (ctx : Uart16550aCtx) : Uart16550aCtx :=
  match ctx.console with
  | none => ctx
  | some dev =>
      if ctx.rxPaused ∧ ctx.backlog.cnt < uartBacklogLowWatermark then
        match charResumeRxLocked dev with
        | .error error => ctx.vmReportError error
        | .ok next => { ctx with console := some next, rxPaused := false }
      else
        ctx

/-- The character-timeout latch is re-evaluated only when the refill moved a byte. -/
def timeoutAfterRefill (ctx : Uart16550aCtx) (pushed : Bool) : Uart16550aCtx :=
  if pushed then
    { ctx with
      rxTimeout :=
        has ctx.fcr fcrEnableFifo && decide (0 < ctx.rx.cnt)
          && decide (ctx.rx.cnt < ctx.rxTriggerLevel) }
  else
    ctx

def uart16550aRxFifoRefill (ctx : Uart16550aCtx) : Uart16550aCtx :=
  let (moved, pushed) := refillLoop uartFifoSize ctx false
  timeoutAfterRefill (resumeIfDrained moved) pushed

def uart16550aRxFifoPop (ctx : Uart16550aCtx) : Byte × Uart16550aCtx :=
  if ctx.rx.cnt = 0 then
    (0#8, ctx)
  else
    let val := ctx.rx.front
    let rx := ctx.rx.take
    (val,
      { ctx with
        drained := ctx.drained ++ [val]
        rx := rx
        rxTimeout := false
        lsr := if rx.cnt = 0 then ctx.lsr &&& ~~~lsrDr else ctx.lsr })

/-- The buffer that `uart_16550a_tx_flush` assembles, one byte per remaining count. -/
def txDrain : Nat → Ring uartFifoSize Byte → List Byte × Ring uartFifoSize Byte
  | 0, tx => ([], tx)
  | count + 1, tx =>
      let (rest, final) := txDrain count { tx with tail := (tx.tail + 1) % uartFifoSize }
      (tx.front :: rest, final)

/-- `uart_16550a_tx_flush`; `ret` is the error of the backend's write, if it fails. -/
def uart16550aTxFlush (ctx : Uart16550aCtx) (ret : Option VmError) : Uart16550aCtx :=
  let ctx :=
    if ctx.tx.cnt > 0 then
      let ctx :=
        match ctx.console with
        | none => ctx
        | some dev =>
            let (buf, tx) := txDrain ctx.tx.cnt ctx.tx
            let ctx :=
              { ctx with tx := tx, console := some { dev with output := dev.output ++ buf } }
            match ret with
            | none => ctx
            | some error => ctx.vmReportError error
      { ctx with tx := { ctx.tx with cnt := 0 } }
    else
      ctx
  { ctx with lsr := ctx.lsr ||| (lsrThre ||| lsrTemt), threIntPending := true }

def uart16550aIirGet (ctx : Uart16550aCtx) : Byte :=
  let iir := if has ctx.fcr fcrEnableFifo then 0xc0#8 else 0x00#8
  let triggerReached :=
    if has ctx.fcr fcrEnableFifo then
      decide (ctx.rx.cnt ≥ ctx.rxTriggerLevel)
    else
      decide (ctx.rx.cnt > 0)
  -- pending causes in the order of their priority
  if has ctx.ier ierRlsi && has ctx.lsr lsrBrkErrorBits then
    iir ||| 0x06#8
  else if has ctx.ier ierRdi && triggerReached then
    iir ||| 0x04#8
  else if has ctx.ier ierRdi && ctx.rxTimeout then
    iir ||| 0x0c#8
  else if has ctx.ier ierThri && ctx.threIntPending then
    iir ||| 0x02#8
  else if has ctx.ier ierMsi && has ctx.msr msrAnyDelta then
    iir ||| 0x00#8
  else
    iir ||| iirNoInt

def uart16550aIrqUpdate (ctx : Uart16550aCtx) : Uart16550aCtx :=
  ctx.irqSetLevel (!has (uart16550aIirGet ctx) iirNoInt)

/-- The modem lines as wired: constant without loopback, MCR outputs with it. -/
def modemLines (ctx : Uart16550aCtx) : Byte :=
  if !uart16550aLoopbackIsEnabled ctx then
    msrDcd ||| msrDsr ||| msrCts
  else
    (if has ctx.mcr mcrDtr then msrDsr else 0#8)
      ||| (if has ctx.mcr mcrRts then msrCts else 0#8)
      ||| (if has ctx.mcr mcrOut1 then msrRi else 0#8)
      ||| (if has ctx.mcr mcrOut2 then msrDcd else 0#8)

def uart16550aMsrUpdate (ctx : Uart16550aCtx) : Uart16550aCtx :=
  let oldMsr := ctx.msr
  let newMsr := modemLines ctx
  let delta := ((oldMsr ^^^ newMsr) &&& (msrDcd ||| msrDsr ||| msrCts)) >>> 4
  -- the ring indicator reports its trailing edge only
  let delta := if has oldMsr msrRi && !has newMsr msrRi then delta ||| msrTeri else delta
  { ctx with msr := newMsr ||| (oldMsr &&& msrAnyDelta) ||| delta }

def uart16550aRegRead (ctx : Uart16550aCtx) (offset : Nat) : Byte × Uart16550aCtx :=
  match offset with
  | 0 => if uart16550aDlabIsSet ctx then (ctx.dll, ctx) else uart16550aRxFifoPop ctx
  | 1 => (if uart16550aDlabIsSet ctx then ctx.dlm else ctx.ier, ctx)
  | 2 =>
      let val := uart16550aIirGet ctx
      -- identifying the transmitter interrupt acknowledges it
      (val, if val &&& iirId = 0x02#8 then { ctx with threIntPending := false } else ctx)
  | 3 => (ctx.lcr, ctx)
  | 4 => (ctx.mcr, ctx)
  | 5 => (ctx.lsr &&& ~~~0x80#8, { ctx with lsr := ctx.lsr &&& ~~~lsrBrkErrorBits })
  | 6 => (ctx.msr, { ctx with msr := ctx.msr &&& ~~~msrAnyDelta })
  | 7 => (ctx.scr, ctx)
  | _ => (0xff#8, ctx)

/-- The transmit register with the divisor latch closed. -/
def transmit (ctx : Uart16550aCtx) (val : Byte) (ret : Option VmError) : Uart16550aCtx :=
  if uart16550aLoopbackIsEnabled ctx then
    uart16550aRxFifoPush ctx val
  else
    uart16550aTxFlush
      { ctx with
        tx := ctx.tx.put val
        lsr := ctx.lsr &&& ~~~(lsrThre ||| lsrTemt)
        threIntPending := false }
      ret

/-- Enabling the transmitter interrupt while the transmitter is idle raises it at once. -/
def writeIer (ctx : Uart16550aCtx) (val : Byte) : Uart16550aCtx :=
  let oldIer := ctx.ier
  let ctx := { ctx with ier := val &&& 0x0f#8 }
  if !has oldIer ierThri && has ctx.ier ierThri && decide (ctx.tx.cnt = 0) then
    { ctx with threIntPending := true }
  else
    ctx

def triggerLevel (val : Byte) : Nat :=
  if val &&& 0xc0#8 = 0x00#8 then
    1
  else if val &&& 0xc0#8 = 0x40#8 then
    4
  else if val &&& 0xc0#8 = 0x80#8 then
    8
  else
    14

def writeFcr (ctx : Uart16550aCtx) (val : Byte) : Uart16550aCtx :=
  let val := val &&& 0xcf#8
  if !has val fcrEnableFifo then
    uart16550aTxFifoClear
      (uart16550aRxFifoClear { ctx with fcr := 0#8, rxTriggerLevel := 1 })
  else
    let ctx := { ctx with fcr := val &&& ~~~(fcrClearRcvr ||| fcrClearXmit) }
    let ctx := if has val fcrClearRcvr then uart16550aRxFifoClear ctx else ctx
    let ctx := if has val fcrClearXmit then uart16550aTxFifoClear ctx else ctx
    { ctx with rxTriggerLevel := triggerLevel val }

/-- In loopback the break signal is reflected into the line status register. -/
def writeLcr (ctx : Uart16550aCtx) (val : Byte) : Uart16550aCtx :=
  let ctx := { ctx with lcr := val }
  if uart16550aLoopbackIsEnabled ctx then
    if has ctx.lcr lcrSbc then
      { ctx with lsr := ctx.lsr ||| lsrBi }
    else
      { ctx with lsr := ctx.lsr &&& ~~~lsrBi }
  else
    ctx

def uart16550aRegWrite (ctx : Uart16550aCtx) (offset : Nat) (val : Byte)
    (ret : Option VmError)
    : Uart16550aCtx :=
  match offset with
  | 0 => if uart16550aDlabIsSet ctx then { ctx with dll := val } else transmit ctx val ret
  | 1 => if uart16550aDlabIsSet ctx then { ctx with dlm := val } else writeIer ctx val
  | 2 => writeFcr ctx val
  | 3 => writeLcr ctx val
  | 4 => uart16550aMsrUpdate { ctx with mcr := val &&& 0x1f#8 }
  | 7 => { ctx with scr := val }
  | _ => ctx

/-- Register index of an offset in the I/O region, truncated to 16 bits as in the source.
-/
def regIdx (ctx : Uart16550aCtx) (offset : Nat) : Nat :=
  (offset >>> ctx.regShift) % 2 ^ 16

def uartIoRead (ctx : Uart16550aCtx) (offset : Nat) : Byte × Uart16550aCtx :=
  let reg := regIdx ctx offset
  let ctx := if reg = 0 then ctx.irqSetLevel false else ctx
  let (ret, ctx) := uart16550aRegRead ctx reg
  let ctx := uart16550aIrqUpdate ctx
  let ctx := uart16550aRxFifoRefill ctx
  (ret, uart16550aIrqUpdate ctx)

/-- `uart_io_write`; only the lowest byte of the payload reaches the register. -/
def uartIoWrite (ctx : Uart16550aCtx) (offset val : Nat) (ret : Option VmError)
    : Uart16550aCtx :=
  uart16550aIrqUpdate
    (uart16550aRegWrite ctx (regIdx ctx offset) (BitVec.ofNat 8 val) ret)

/-- The loop of `uart_rx_cb`: a full backlog raises the overrun bit and drops the rest. -/
def backlogFill : List Byte → Uart16550aCtx → Uart16550aCtx
  | [], ctx => ctx
  | c :: rest, ctx =>
      if ctx.backlog.cnt ≥ uartBacklogSize then
        { ctx with lsr := ctx.lsr ||| lsrOe }
      else
        backlogFill rest { ctx with backlog := ctx.backlog.put c }

/-- The application of backpressure inside `uart_rx_cb`. -/
def pauseIfFull (ctx : Uart16550aCtx) : Uart16550aCtx :=
  match ctx.console with
  | none => ctx
  | some dev =>
      if !ctx.rxPaused ∧ ctx.backlog.cnt ≥ uartBacklogHighWatermark then
        match charPauseRxLocked dev with
        | .error error => ctx.vmReportError error
        | .ok next => { ctx with console := some next, rxPaused := true }
      else
        ctx

def uartRxCb (ctx : Uart16550aCtx) (buf : List Byte) : Uart16550aCtx :=
  if buf = [] then
    ctx
  else
    uart16550aIrqUpdate (uart16550aRxFifoRefill (pauseIfFull (backlogFill buf ctx)))

/-- State after `uart_realize`; a console, when there is one, has just been bound. -/
def uartRealize (console : Option CharBackend) (regShift : Nat) : Uart16550aCtx :=
  let ctx : Uart16550aCtx := {
    console := console.map fun dev => { dev with binding := some true }
    regShift := regShift
    dll := 0#8
    dlm := 0#8
    ier := 0#8
    fcr := 0#8
    lcr := 0#8
    mcr := 0#8
    lsr := 0x60#8
    msr := 0#8
    scr := 0#8
    rx := .empty 0#8
    backlog := .empty 0#8
    rxPaused := false
    tx := .empty 0#8
    rxTriggerLevel := 0
    rxTimeout := false
    threIntPending := true
    irqLevel := false
    errors := []
    drained := []
  }
  let ctx := uart16550aMsrUpdate ctx
  { ctx with msr := ctx.msr &&& ~~~msrAnyDelta }

/-- A guest access at any offset, or a batch from the host; `ret` is the outcome of a console write.
-/
inductive UartOp where
  | read (offset : Nat)
  | write (offset val : Nat) (ret : Option VmError)
  | rx (buf : List Byte)

def uartStep (ctx : Uart16550aCtx) : UartOp → Uart16550aCtx
  | .read offset => (uartIoRead ctx offset).2
  | .write offset val ret => uartIoWrite ctx offset val ret
  | .rx buf => uartRxCb ctx buf

end Modvm.Uart
