/-
# Frames and buffers on their way out

`xmit_priv` owns frames and buffers, of two kinds each: frames with and without an `ext_tag`, and
buffers for data and for management.  `rtw_xmit` takes a frame and puts it on a queue of its
station, `xmit_xmitframes` takes frames off these queues and writes them into buffers,
`_dequeue_writeport` writes the buffers; the first frame of a buffer stays with it, as `priv_data`,
until the buffer is handed on.  Management frames come with a buffer.

Several threads do this at once: any number of them sends packets or management frames, one fills
buffers and one writes them.  A step is what one of them does under a lock, or to what only it can
see.  `round` is one category in `xmit_xmitframes`, during which `pxmitpriv->lock` is held; which
stations and categories come next, and when a buffer is full, is not said here.
-/
import Rtl8723bs.Lib.Pools
import Rtl8723bs.Lib.Shelves
import Rtl8723bs.Tx.Coalesce
import Rtl8723bs.Tx.Sched

namespace Rtl8723bs

open Pools

namespace XmitPath

/-! ## 1. The state -/

abbrev FrameId := Nat
abbrev BufId := Nat

/-- `XMITBUF_DATA` and `XMITBUF_MGNT`. -/
inductive BufTag where
  | data
  | mgnt
deriving DecidableEq, Repr

/-- Where a call of `rtw_xmit` is: before what the name says. -/
inductive CallerPc where
  | idle
  | updateAttrib (id : FrameId)
  | sleepingSta (f : XmitFrame)
  | halXmit (f : XmitFrame)

/-- Where somebody who sends a management frame is. -/
inductive MgntPc where
  | idle
  | allocXmitbuf (id : FrameId)
  | dump (id : FrameId) (b : BufId)
  /-- The driver is stopped; the buffer is freed already. -/
  | freeXmitframe (id : FrameId)
  /-- `priv_data` is cleared. -/
  | send (b : BufId)
deriving DecidableEq, Repr

/-- What comes after a buffer is handed on or freed: the next buffer, for a frame of this station,
or the end of the category. -/
inductive Next where
  | serve (psta : StaId) (single : Bool)
  | unlock
deriving DecidableEq, Repr

/-- Where `xmit_xmitframes` is, with `pxmitbuf` and `k`. -/
inductive XmitPc where
  | idle
  | round (ac : Ac) (held : Option (BufId × Nat))
  | allocXmitbuf (ac : Ac) (psta : StaId)
  | send (ac : Ac) (psta : StaId) (b : BufId) (k : Nat)
  | coalesce (ac : Ac) (id : FrameId) (b : BufId) (k : Nat)
  | freeXmitframe (ac : Ac) (id : FrameId) (b : BufId) (k : Nat)
  | freeFirst (ac : Ac) (b : BufId) (next : Next)
  | enqueue (ac : Ac) (b : BufId) (next : Next)
  | freeXmitbuf (ac : Ac) (b : BufId) (next : Next)
deriving DecidableEq, Repr

/-- `struct xmit_priv`, the station queues and the threads.  `frames.cnt false` is
`free_xmitframe_cnt`, `bufs.cnt .data` and `bufs.cnt .mgnt` are `free_xmitbuf_cnt` and
`free_xmit_extbuf_cnt`. -/
structure World where
  sched : Sched
  /-- Of two kinds, by `ext_tag`. -/
  frames : Pool FrameId Bool
  bufs : Pool BufId BufTag
  privData : BufId → Option FrameId
  /-- `pxmitbuf->len`. -/
  len : BufId → Nat
  pendingXmitbufQueue : List BufId
  /-- The list `rtl8723bs_free_xmit_priv` empties. -/
  tmplist : List BufId
  callers : Nat → CallerPc
  mgnts : Nat → MgntPc
  xmit : XmitPc
  /-- The buffer in `_dequeue_writeport`. -/
  writing : Option BufId

def nrXmitframe : Nat := 256
def nrXmitExtframe : Nat := 32
def nrXmitbuff : Nat := 16
def nrXmitExtbuff : Nat := 32

/-- The frames and the buffers that there are. -/
def frameStock : Set FrameId := {id | id < nrXmitframe + nrXmitExtframe}
def bufStock : Set BufId := {b | b < nrXmitbuff + nrXmitExtbuff}

/-- After `_rtw_init_xmit_priv`, with empty queues. -/
def World.start (st : Sched) : World where
  sched := { st with q := .empty, sleepQ := fun _ => [], sleepqLen := fun _ => 0 }
  frames :=
    { kind := fun id => decide (nrXmitframe ≤ id)
      free := fun extTag =>
        if extTag then List.range' nrXmitframe nrXmitExtframe else List.range nrXmitframe
      cnt := fun extTag => if extTag then nrXmitExtframe else nrXmitframe
      allocs := fun _ => 0
      frees := fun _ => 0 }
  bufs :=
    { kind := fun b => if b < nrXmitbuff then .data else .mgnt
      free := fun
        | .data => List.range nrXmitbuff
        | .mgnt => List.range' nrXmitbuff nrXmitExtbuff
      cnt := fun
        | .data => nrXmitbuff
        | .mgnt => nrXmitExtbuff
      allocs := fun _ => 0
      frees := fun _ => 0 }
  privData := fun _ => none
  len := fun _ => 0
  pendingXmitbufQueue := []
  tmplist := []
  callers := fun _ => .idle
  mgnts := fun _ => .idle
  xmit := .idle
  writing := none

/-! ## 2. Frames and buffers -/

/-- `rtw_free_xmitframe`. -/
def World.rtwFreeXmitframe (w : World) (id : FrameId) : World :=
  { w with frames := w.frames.release id }

/-- `rtw_free_xmitframe(pxmitbuf->priv_data)`, which may be null, and `priv_data = NULL`. -/
def World.freePrivData (w : World) (b : BufId) : World :=
  { w with
    frames := (w.privData b).elim w.frames w.frames.release
    privData := Function.update w.privData b none }

/-- `rtw_alloc_xmitbuf` and `rtw_alloc_xmitbuf_ext`. -/
def World.rtwAllocXmitbuf (w : World) (tag : BufTag) : Option (BufId × World) :=
  (w.bufs.alloc tag).map fun r => (r.1, { w with
    bufs := r.2
    privData := Function.update w.privData r.1 none
    len := Function.update w.len r.1 0 })

/-- `rtw_free_xmitbuf`. -/
def World.rtwFreeXmitbuf (w : World) (b : BufId) : World := { w with bufs := w.bufs.release b }

/-- `enqueue_pending_xmitbuf`. -/
def World.enqueuePendingXmitbuf (w : World) (b : BufId) : World :=
  { w with pendingXmitbufQueue := w.pendingXmitbufQueue ++ [b] }

/-! ## 3. `rtw_xmit`, and the stations -/

def World.setCaller (w : World) (c : Nat) (pc : CallerPc) : World :=
  { w with callers := Function.update w.callers c pc }

/-- `rtw_alloc_xmitframe`. -/
def World.rtwXmit (w : World) (c : Nat) : World :=
  match w.frames.alloc false with
  | none => w
  | some (id, frames) => { w with frames := frames }.setCaller c (.updateAttrib id)

/-- The frame with its attributes, or `_FAIL`; `rtw_br_client_tx` may fail before. -/
def World.updateAttrib (w : World) (c : Nat) (id : FrameId) (r : Option XmitFrame) : World :=
  match r with
  | none => (w.rtwFreeXmitframe id).setCaller c .idle
  | some f => w.setCaller c (.sleepingSta { f with id := id })

def World.sleepingSta (w : World) (c : Nat) (f : XmitFrame) : World :=
  match xmitframeEnqueueForSleepingSta w.sched f with
  | some st => { w with sched := st }.setCaller c .idle
  | none => w.setCaller c (.halXmit f)

/-- `rtl8723bs_hal_xmitframe_enqueue`. -/
def World.halXmitframeEnqueue (w : World) (f : XmitFrame) : World :=
  match rtwXmitClassifier w.sched f with
  | some st => { w with sched := st }
  | none => w.rtwFreeXmitframe f.id

/-- The next step of `rtw_xmit`, where it has no choice; `rtl8723bs_hal_xmit` enqueues likewise. -/
def World.callerGo (w : World) (c : Nat) : Option World :=
  match w.callers c with
  | .sleepingSta f => some (w.sleepingSta c f)
  | .halXmit f => some ((w.halXmitframeEnqueue f).setCaller c .idle)
  | _ => none

/-- A loop of `wakeup_sta_to_xmit`. -/
def World.releaseLoop (psta : StaId) : List XmitFrame → World → World
  | [], w => w
  | f :: rest, w =>
    releaseLoop psta rest
      ({ w with sched := w.sched.sleepDequeue psta rest }.halXmitframeEnqueue
        { f with triggered := 1 })

/-- The frames for everybody. -/
def World.releaseBmc (w : World) (pstaBmc : StaId) : World :=
  if w.sched.staDzBitmap &&& 0xfffe = 0 then
    let w := w.releaseLoop pstaBmc (w.sched.sleepQ pstaBmc)
    if w.sched.sleepqLen pstaBmc = 0 then
      { w with sched := { w.sched with staDzBitmap := w.sched.staDzBitmap &&& ~~~bit16 0 } }
    else w
  else w

/-- `wakeup_sta_to_xmit`. -/
def World.wakeupStaToXmit (w : World) (psta : StaId) : World :=
  let w' := w.releaseLoop psta (w.sched.sleepQ psta)
  let w' := { w' with sched := w'.sched.wakeIfDone psta }
  match rtwGetBcmcStainfo w.sched.table with
  | none => w'
  | some pstaBmc => w'.releaseBmc pstaBmc

/-- `rtw_free_stainfo`: all frames of the station are freed. -/
def World.freeStainfo (w : World) (psta : StaId) : World :=
  let held := w.sched.sleepQ psta ++
    [Ac.vo, .vi, .be, .bk].flatMap (w.sched.q.queue psta)
  { w with
    sched := rtwFreeStainfo w.sched psta
    frames := held.foldl (fun p f => p.release f.id) w.frames }

/-! ## 4. Management frames -/

def World.setMgnt (w : World) (m : Nat) (pc : MgntPc) : World :=
  { w with mgnts := Function.update w.mgnts m pc }

/-- `rtw_alloc_xmitframe_ext`, in `alloc_mgtxmitframe`. -/
def World.allocMgtxmitframe (w : World) (m : Nat) : World :=
  match w.frames.alloc true with
  | none => w
  | some (id, frames) => { w with frames := frames }.setMgnt m (.allocXmitbuf id)

/-- The rest of it; without a buffer the frame is freed. -/
def World.allocMgntBuf (w : World) (m : Nat) (id : FrameId) : World :=
  match w.rtwAllocXmitbuf .mgnt with
  | none => (w.rtwFreeXmitframe id).setMgnt m .idle
  | some (b, w) =>
    { w with privData := Function.update w.privData b (some id) }.setMgnt m (.dump id b)

/-- `dump_mgntframe`, and `rtl8723bs_mgnt_xmit` up to `priv_data = NULL`; `cannotRun` is
`RTW_CANNOT_RUN`. -/
def World.dumpMgntframe (w : World) (m : Nat) (id : FrameId) (b : BufId) (cannotRun : Bool) :
    World :=
  if cannotRun then (w.rtwFreeXmitbuf b).setMgnt m (.freeXmitframe id)
  else
    { w.rtwFreeXmitframe id with privData := Function.update w.privData b none }.setMgnt m
      (.send b)

/-- The end of `rtl8723bs_mgnt_xmit`: a beacon is written at once, whatever `rtw_write_port`
returns. -/
def World.sendMgnt (w : World) (m : Nat) (b : BufId) (beacon : Bool) : World :=
  (if beacon then w.rtwFreeXmitbuf b else w.enqueuePendingXmitbuf b).setMgnt m .idle

/-! ## 5. `xmit_xmitframes` -/

/-- The first frame of a queue, if there is room: `full` says that it does not fit the buffer any
more, or that the buffer must not have more frames, or not of its `qsel`. -/
def World.serve (w : World) (ac : Ac) (held : Option (BufId × Nat)) (psta : StaId)
    (full single : Bool) : World :=
  match held with
  | none => { w with xmit := .allocXmitbuf ac psta }
  | some (b, k) =>
    if full then
      if 0 < w.len b ∧ (w.privData b).isSome then
        { w with xmit := .freeFirst ac b (.serve psta single) }
      else { w with xmit := .freeXmitbuf ac b (.serve psta single) }
    else { w with xmit := .send ac psta b k }

/-- `rtw_alloc_xmitbuf`; without a buffer the loop ends with -2. -/
def World.allocDataBuf (w : World) (ac : Ac) (psta : StaId) : World :=
  match w.rtwAllocXmitbuf .data with
  | none => { w with xmit := .round ac none }
  | some (b, w) => { w with xmit := .send ac psta b 0 }

/-- The frame is taken off its queue, unless it has to wait for its station to wake up; the first
frame of a buffer is its `priv_data`. -/
def World.sendFrame (w : World) (ac : Ac) (psta : StaId) (b : BufId) (k : Nat) : Option World :=
  match w.sched.q.queue psta ac with
  | [] => none
  | f :: rest =>
    if w.sched.isAp && w.sched.ownerSleeps f && f.triggered = 0 then
      some { w with xmit := .round ac (some (b, k)) }
    else
      some { w with
        sched := w.sched.takeFirst psta ac f rest
        privData := if k = 0 then Function.update w.privData b (some f.id) else w.privData
        xmit := .coalesce ac f.id b k }

/-- `rtw_xmitframe_coalesce`: `last_txcmdsz`, or `_FAIL`.  In the end
`if (k != 1) rtw_free_xmitframe(pxmitframe)`. -/
def World.coalesce (w : World) (ac : Ac) (id : FrameId) (b : BufId) (k : Nat)
    (r : Option Nat) : World :=
  let k' := if r.isSome then k + 1 else k
  let pc := if k' ≠ 1 then .freeXmitframe ac id b k' else .round ac (some (b, k'))
  match r with
  | none => { w with xmit := pc }
  | some lastTxcmdsz =>
    let txlen := txdescOffset + lastTxcmdsz
    { w with
      len := Function.update w.len b (rnd8 (w.len b) + txlen)
      xmit := pc }

/-- `pxmitbuf = NULL`, or the next buffer. -/
def Next.pc (ac : Ac) : Next → XmitPc
  | .serve psta _ => .allocXmitbuf ac psta
  | .unlock => .idle

/-- The same behind `enqueue_pending_xmitbuf`, where the loop ends with -3 if more than one station
waits. -/
def Next.pcEnqueued (ac : Ac) : Next → XmitPc
  | .serve psta true => .allocXmitbuf ac psta
  | .serve _ false => .round ac none
  | .unlock => .idle

/-- The end of a category: the buffer at hand is handed on, if there is something in it. -/
def World.unlock (w : World) (ac : Ac) (held : Option (BufId × Nat)) : World :=
  match held with
  | none => { w with xmit := .idle }
  | some (b, _) =>
    if 0 < w.len b then { w with xmit := .freeFirst ac b .unlock }
    else { w with xmit := .freeXmitbuf ac b .unlock }

/-- The next step of `xmit_xmitframes`, where it has no choice. -/
def World.xmitGo (w : World) : Option World :=
  match w.xmit with
  | .allocXmitbuf ac psta => some (w.allocDataBuf ac psta)
  | .send ac psta b k => w.sendFrame ac psta b k
  | .freeXmitframe ac id b k => some { w.rtwFreeXmitframe id with xmit := .round ac (some (b, k)) }
  | .freeFirst ac b next => some { w.freePrivData b with xmit := .enqueue ac b next }
  | .enqueue ac b next => some { w.enqueuePendingXmitbuf b with xmit := next.pcEnqueued ac }
  | .freeXmitbuf ac b next => some { w.rtwFreeXmitbuf b with xmit := next.pc ac }
  | _ => none

/-! ## 6. `_dequeue_writeport` and the end -/

/-- `select_and_dequeue_pending_xmitbuf`, which may take any buffer out of the middle. -/
def World.selectXmitbuf (w : World) (b : BufId) : World :=
  { w with
    pendingXmitbufQueue := w.pendingXmitbufQueue.erase b
    writing := some b }

/-- `enqueue_pending_xmitbuf_to_head`. -/
def World.requeue (w : World) (b : BufId) : World :=
  { w with
    pendingXmitbufQueue := b :: w.pendingXmitbufQueue
    writing := none }

/-- The buffer is written, with whatever result, or the driver is stopped: `free_xmitbuf`. -/
def World.written (w : World) (b : BufId) : World := { w.rtwFreeXmitbuf b with writing := none }

/-- `rtl8723bs_free_xmit_priv`: the pending buffers are put on a list of its own. -/
def World.freeXmitPriv (w : World) : World :=
  { w with
    tmplist := w.tmplist ++ w.pendingXmitbufQueue
    pendingXmitbufQueue := [] }

/-- One turn of its loop. -/
def World.flush (w : World) : Option World :=
  match w.tmplist with
  | [] => none
  | b :: rest => some (({ w with tmplist := rest }.freePrivData b).rtwFreeXmitbuf b)

/-! ## 7. Runs -/

inductive Act where
  | rtwXmit (c : Nat)
  | updateAttrib (c : Nat) (r : Option XmitFrame)
  | callerGo (c : Nat)
  | stopStaXmit (psta : StaId)
  | wakeupStaToXmit (psta : StaId)
  | freeStainfo (psta : StaId)
  /-- Any other part of the driver, which may change everything but the queues. -/
  | other (st : Sched)
  | allocMgtxmitframe (m : Nat)
  | allocMgntBuf (m : Nat)
  | dumpMgntframe (m : Nat) (cannotRun : Bool)
  | sendMgnt (m : Nat) (beacon : Bool)
  /-- A category of `xmit_xmitframes` begins. -/
  | lock (ac : Ac)
  | serve (psta : StaId) (full single : Bool)
  /-- A station was served: it is unlinked, or moved to the end of the list. -/
  | settle (psta : StaId) (err : Int)
  | coalesce (r : Option Nat)
  | unlock
  | xmitGo
  | select (b : BufId)
  | requeue
  | written
  | freeXmitPriv
  | flush

/-- One step; `none` where it cannot be taken. -/
def World.step (w : World) : Act → Option World
  | .rtwXmit c =>
    match w.callers c with
    | .idle => some (w.rtwXmit c)
    | _ => none
  | .updateAttrib c r =>
    match w.callers c with
    | .updateAttrib id => some (w.updateAttrib c id r)
    | _ => none
  | .callerGo c => w.callerGo c
  | .stopStaXmit psta => (stopStaXmit w.sched psta).map fun st => { w with sched := st }
  | .wakeupStaToXmit psta => some (w.wakeupStaToXmit psta)
  | .freeStainfo psta => some (w.freeStainfo psta)
  | .other st => some { w with sched := { st with q := w.sched.q, sleepQ := w.sched.sleepQ } }
  | .allocMgtxmitframe m => if w.mgnts m = .idle then some (w.allocMgtxmitframe m) else none
  | .allocMgntBuf m =>
    match w.mgnts m with
    | .allocXmitbuf id => some (w.allocMgntBuf m id)
    | _ => none
  | .dumpMgntframe m cannotRun =>
    match w.mgnts m with
    | .dump id b => some (w.dumpMgntframe m id b cannotRun)
    | .freeXmitframe id => some ((w.rtwFreeXmitframe id).setMgnt m .idle)
    | _ => none
  | .sendMgnt m beacon =>
    match w.mgnts m with
    | .send b => some (w.sendMgnt m b beacon)
    | _ => none
  | .lock ac => if w.xmit = .idle then some { w with xmit := .round ac none } else none
  | .serve psta full single =>
    match w.xmit with
    | .round ac held => some (w.serve ac held psta full single)
    | _ => none
  | .settle psta err =>
    match w.xmit with
    | .round ac _ => some { w with sched := settle psta ac err w.sched }
    | _ => none
  | .coalesce r =>
    match w.xmit with
    | .coalesce ac id b k => some (w.coalesce ac id b k r)
    | _ => none
  | .unlock =>
    match w.xmit with
    | .round ac held => some (w.unlock ac held)
    | _ => none
  | .xmitGo => w.xmitGo
  | .select b =>
    if w.writing = none ∧ b ∈ w.pendingXmitbufQueue then some (w.selectXmitbuf b) else none
  | .requeue => w.writing.map w.requeue
  | .written => w.writing.map w.written
  | .freeXmitPriv => some w.freeXmitPriv
  | .flush => w.flush

/-- A run, any number of steps in any order. -/
def World.run (w : World) (acts : List Act) : Option World := acts.foldlM World.step w

/-! ## 8. What is asked -/

/-- Where a frame can be.  The last three are the hands of those who work on it. -/
inductive FramePlace
  | free (extTag : Bool)
  | pending (psta : StaId) (ac : Ac)
  | sleep (psta : StaId)
  | privData (b : BufId)
  | rtwXmit (c : Nat)
  | mgnt (m : Nat)
  | xmitThread
deriving DecidableEq

/-- Where a buffer can be. -/
inductive BufPlace
  | free (tag : BufTag)
  | pending
  | tmplist
  | mgnt (m : Nat)
  | xmitThread
  | writing
deriving DecidableEq

def CallerPc.frame : CallerPc → List FrameId
  | .idle => []
  | .updateAttrib id => [id]
  | .sleepingSta f | .halXmit f => [f.id]

/-- The frame a sender of a management frame has in hand, but for the one that is `priv_data`. -/
def MgntPc.frame : MgntPc → List FrameId
  | .allocXmitbuf id | .freeXmitframe id => [id]
  | _ => []

def MgntPc.buf : MgntPc → List BufId
  | .dump _ b | .send b => [b]
  | _ => []

/-- The frame in hand; the first of a buffer is its `priv_data`. -/
def XmitPc.frame : XmitPc → List FrameId
  | .coalesce _ id _ k | .freeXmitframe _ id _ k => if k = 0 then [] else [id]
  | _ => []

def XmitPc.buf : XmitPc → List BufId
  | .idle | .allocXmitbuf _ _ => []
  | .round _ held => held.toList.map Prod.fst
  | .send _ _ b _ | .coalesce _ _ b _ | .freeXmitframe _ _ b _ => [b]
  | .freeFirst _ b _ | .enqueue _ b _ | .freeXmitbuf _ b _ => [b]

/-- The frames in a place.  The `priv_data` of a free buffer says nothing. -/
def World.frameAt (w : World) : FramePlace → List FrameId
  | .free extTag => w.frames.free extTag
  | .pending psta ac => (w.sched.q.queue psta ac).map (·.id)
  | .sleep psta => (w.sched.sleepQ psta).map (·.id)
  | .privData b => if b ∈ w.bufs.free (w.bufs.kind b) then [] else (w.privData b).toList
  | .rtwXmit c => (w.callers c).frame
  | .mgnt m => (w.mgnts m).frame
  | .xmitThread => w.xmit.frame

/-- The buffers in a place. -/
def World.bufAt (w : World) : BufPlace → List BufId
  | .free tag => w.bufs.free tag
  | .pending => w.pendingXmitbufQueue
  | .tmplist => w.tmplist
  | .mgnt m => (w.mgnts m).buf
  | .xmitThread => w.xmit.buf
  | .writing => w.writing.toList

/-- **Nothing is lost.**  Every frame and every buffer is in one place, and once; it was given back
as often as it was taken, but for the time it is away; and the counters count the free ones. -/
structure World.Conserved (w : World) : Prop where
  frame : ∀ id ∈ frameStock, ∃! p, id ∈ w.frameAt p
  frameOnce : ∀ p, (w.frameAt p).Nodup
  buf : ∀ b ∈ bufStock, ∃! p, b ∈ w.bufAt p
  bufOnce : ∀ p, (w.bufAt p).Nodup
  frames : w.frames.Good frameStock
  bufs : w.bufs.Good bufStock

/-- A frame fails to be coalesced only behind two others at least. -/
def World.StepOk (w : World) : Act → Prop
  | .coalesce none => ∀ ac id b k, w.xmit = .coalesce ac id b k → 2 ≤ k
  | _ => True

/-- All steps of a run are so. -/
def World.RunOk (w : World) : List Act → Prop
  | [] => True
  | a :: acts => w.StepOk a ∧ ∀ w', w.step a = some w' → w'.RunOk acts

end XmitPath

end Rtl8723bs
