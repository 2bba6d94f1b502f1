/-
# The pool of received frames

`recv_priv` owns NR_RECVFRAME frames.  A frame is taken off `free_recv_queue` by the receive
tasklet, filled, and handed to `recv_func`; from there it goes to a station's `defrag_q`, to a
reordering queue or to `uc_swdec_pending_queue`, and comes back through `rtw_free_recvframe`.

The handler runs in steps: between any two of them a reordering timer may fire, a block-ack
session may be set up and the keys, the stations and the state of the adapter may change, so
every step has its own environment.  `allocs` and `frees` count, for each frame, how often it
was taken from the free queue and how often it was given back.
-/
import Rtl8723bs.Lib.Shelves
import Rtl8723bs.Rx.Defrag
import Rtl8723bs.Rx.ReorderRun

namespace Rtl8723bs

def nrRecvframe : Nat := 256

def wifiMonitorState : Nat := 0x80000000

def llcHeaderSize : Nat := 6

/-- `Ndis802_11AuthModeWPAPSK`. -/
def ndis80211AuthModeWpapsk : Nat := 4

/-! ## 1. What a step reads -/

/-- What the receive path reads while a step runs.  The broadcast entry of the station table is
allocated with the adapter. -/
structure RecvEnv where
  rx : RxEnv
  mic : MicKeys
  bcmc : (rtwGetBcmcStainfo rx.stas).isSome
  /-- `mlmepriv.htpriv.ht_option`. -/
  htOption : Bool
  busetkipkey : Bool
  swDecrypt : Bool
  ndisauthtype : Nat
  /-- `psta->ieee8021x_blocked`. -/
  ieee8021xBlocked : StaId → Bool
  /-- `registrypriv.mp_mode` or `mppriv.bRTWSmbCfg`. -/
  mpMode : Bool
  rxBindicatePkt : Bool
  /-- `rtw_wep_decrypt`, `rtw_tkip_decrypt`, `rtw_aes_decrypt`: the buffer they leave, and the
  result where they have one. -/
  wepDecrypt : RecvFrame → List UInt8
  tkipDecrypt : RecvFrame → RxStatus × List UInt8
  aesDecrypt : RecvFrame → RxStatus × List UInt8

/-- The receive descriptor, as far as the attributes need it. -/
structure RxDesc where
  icv : Nat
  security : Nat
  qos : Nat
  swdec : Bool
  tid : Nat
  amsdu : Bool
  moreFrag : Bool
  seq : Nat
  frag : Nat

/-- `rtl8723b_query_rx_desc_status`: the attributes are cleared first. -/
def queryRxDescStatus (d : RxDesc) : RxPktAttrib :=
  { hdrlen := 0, toFrDs := 0, amsdu := d.amsdu.toNat, qos := d.qos, priority := d.tid
    seqNum := d.seq, fragNum := d.frag, mfrag := d.moreFrag.toNat, order := 0, privacy := 0
    bdecrypted := if d.swdec then 0 else 1, encrypt := d.security, ivLen := 0, icvLen := 0
    icvErr := d.icv, ackPolicy := 0, keyIndex := 0, ethType := 0, dst := zeroAddr
    src := zeroAddr, ta := zeroAddr, ra := zeroAddr, bssid := zeroAddr }

/-! ## 2. What is done to one frame -/

/-- The attributes `validate_recv_frame` takes from the header. -/
def readFrameControl (f : RecvFrame) : RecvFrame :=
  { f with attrib := { f.attrib with
      toFrDs := getTofrDs f.mem, fragNum := getFragNum f.mem, seqNum := getSequence f.mem
      mfrag := (getMFrag f.mem).toNat, privacy := (getPrivacy f.mem).toNat
      order := (getOrder f.mem).toNat } }

/-- The protocol version, the two low bits of the frame control field. -/
def frameVersion (f : RecvFrame) : Nat := (f.mem 0).toNat % 4

/-- What `validate_recv_frame` leaves behind: its result, the frame, the station set in it, the
replay state, and what `recvframe_chk_defrag` did to the fragment queues. -/
structure FrameCheck where
  ret : RxStatus
  frame : RecvFrame
  psta : Option StaId
  replay : ReplayState
  defragQ : StaId → List RecvFrame
  freed : List RecvFrame

/-- `validate_recv_frame`.  Only a data frame is ever answered with `_SUCCESS`.  What
`mgt_dispatcher` and `validate_recv_ctrl_frame` do does not touch the frame. -/
def validateRecvFrame (env : RecvEnv) (replay : ReplayState) (q : StaId → List RecvFrame)
    (f : RecvFrame) : FrameCheck :=
  if frameVersion f ≠ 0 then ⟨.fail, f, none, replay, q, []⟩
  else
    let g := readFrameControl f
    if getFrameType f.mem = wifiMgtType then
      let r := recvframeChkDefrag env.mic env.rx.stas q g
      ⟨.fail, g, none, replay, r.defragQ, r.freed⟩
    else if getFrameType f.mem = wifiCtrlType then ⟨.fail, g, none, replay, q, []⟩
    else if getFrameType f.mem = wifiDataType then
      let qos := if getFrameSubType f.mem &&& 0x80 ≠ 0 then 1 else 0
      let v := validateRecvDataFrame env.rx replay { g with attrib := { g.attrib with qos := qos } }
      ⟨v.ret, v.frame, v.psta, v.replay, q, []⟩
    else ⟨.fail, g, none, replay, q, []⟩

/-- The cipher `decryptor` calls. -/
def swDecryptFrame (env : RecvEnv) (f : RecvFrame) : RxStatus × RecvFrame :=
  if f.attrib.encrypt = encWep40 ∨ f.attrib.encrypt = encWep104 then
    (.success, { f with buf := env.wepDecrypt f })
  else if f.attrib.encrypt = encTkip then
    ((env.tkipDecrypt f).1, { f with buf := (env.tkipDecrypt f).2 })
  else if f.attrib.encrypt = encAes then
    ((env.aesDecrypt f).1, { f with buf := (env.aesDecrypt f).2 })
  else (.success, f)

/-- `decryptor`; on `_FAIL` the caller has lost the frame.  The two bits of the key index are
never above `WEP_KEYS`. -/
def decryptor (env : RecvEnv) (f : RecvFrame) : RxStatus × RecvFrame :=
  let keyIndex :=
    if 0 < f.attrib.encrypt then (f.mem (f.attrib.hdrlen + 3)).toNat / 64 % 4
    else f.attrib.keyIndex
  let f := { f with attrib := { f.attrib with keyIndex := keyIndex } }
  let r := if f.attrib.encrypt ≠ 0 ∧ f.attrib.bdecrypted = 0 then swDecryptFrame env f
    else (.success, f)
  match r with
  | (.fail, f) => (.fail, f)
  | (_, f) => (.success, { f with attrib := { f.attrib with bdecrypted := 1 } })

/-- A frame of a cipher is dropped, or it is decrypted and marked. -/
theorem decryptor_of_swDecryptFrame {env : RecvEnv} {f g : RecvFrame} {r : RxStatus}
    (henc : f.attrib.encrypt ≠ 0) (hdec : f.attrib.bdecrypted = 0)
    (h : swDecryptFrame env { f with attrib := { f.attrib with
      keyIndex := (f.mem (f.attrib.hdrlen + 3)).toNat / 64 % 4 } } = (r, g)) :
    decryptor env f = if r = .fail then (.fail, g)
      else (.success, { g with attrib := { g.attrib with bdecrypted := 1 } }) := by
  unfold decryptor
  dsimp only
  rw [if_pos (Nat.pos_of_ne_zero henc), if_pos ⟨henc, hdec⟩, h]
  cases r <;> rfl

/-- `portctrl`: does the frame pass?  A blocked station may only send EAPOL. -/
def portctrl (env : RecvEnv) (f : RecvFrame) : Bool :=
  if env.rx.dot11AuthAlgrthm = .x8021 then
    match rtwGetStainfo env.rx.stas f.attrib.ta with
    | none => true
    | some i =>
      if env.ieee8021xBlocked i then
        be16 f.mem (f.attrib.hdrlen + f.attrib.ivLen + llcHeaderSize) = 0x888e
      else true
  else true

/-- `process_recv_indicatepkts`.  With HT, a frame that `recv_indicatepkt_reorder` refuses is
answered with `_SUCCESS` when the adapter cannot run. -/
def processRecvIndicatepkts (a : Adapter) (htOption : Bool) (ctrl : RecvReorderCtrl)
    (f : RecvFrame) : ReorderResult :=
  if htOption then
    let r := recvIndicatepktReorder a ctrl f
    { r with retval := if r.retval ≠ .success ∧ !rtwCannotRun a then .fail else .success }
  else
    match wlanhdrToEthhdr a f with
    | none => ⟨.fail, f, [], ctrl⟩
    | some g =>
      if rtwCannotRun a then ⟨.fail, g, [], ctrl⟩ else ⟨.success, g, [.indicated g], ctrl⟩

/-! ## 3. The state -/

/-- Where `recv_func_posthandle` is.  From `portctrl` on the frame in hand may be another than
the one the function was called with, `orig_prframe`. -/
inductive PostStage where
  | decryptor (f : RecvFrame)
  | chkDefrag (f : RecvFrame)
  | portctrl (orig : Nat) (f : RecvFrame)
  | indicate (orig : Nat) (f : RecvFrame)

/-- The frame in hand. -/
def PostStage.frame : PostStage → RecvFrame
  | decryptor f => f
  | chkDefrag f => f
  | portctrl _ f => f
  | indicate _ f => f

/-- What the receive tasklet is doing.  While `recv_func` empties `uc_swdec_pending_queue`, the
frame it was called with waits. -/
inductive RxPhase where
  | idle
  | filled (f : RecvFrame)
  | recvFunc (f : RecvFrame)
  | posthandle (waiting : Option RecvFrame) (stage : PostStage)

/-- The frames in the tasklet's hands. -/
def RxPhase.held : RxPhase → List RecvFrame
  | idle => []
  | filled f => [f]
  | recvFunc f => [f]
  | posthandle waiting stage => waiting.toList ++ [stage.frame]

/-- `recv_priv`, the queues of the stations, and the tasklet. -/
structure RecvPool where
  freeRecvQueue : List Nat
  freeRecvframeCnt : Nat
  ucSwdecPendingQueue : List RecvFrame
  /-- `psta->sta_recvpriv.defrag_q`. -/
  defragQ : StaId → List RecvFrame
  /-- `psta->recvreorder_ctrl[]`. -/
  recvreorderCtrl : StaId → Nat → RecvReorderCtrl
  /-- `u.hdr.preorder_ctrl` of each frame, as its station and TID. -/
  preorderCtrl : Nat → StaId × Nat
  replay : ReplayState
  phase : RxPhase
  allocs : Nat → Nat
  frees : Nat → Nat

namespace RecvPool

/-- `_rtw_init_recv_priv`. -/
def start : RecvPool where
  freeRecvQueue := List.range nrRecvframe
  freeRecvframeCnt := nrRecvframe
  ucSwdecPendingQueue := []
  defragQ := fun _ => []
  recvreorderCtrl := fun _ _ =>
    { enable := false, indicateSeq := 0xFFFF, wsizeB := 64, pendingRecvframeQueue := []
      bReorderWaiting := false, timerSet := false }
  preorderCtrl := fun _ => (0, 0)
  replay := ReplayState.init
  phase := .idle
  allocs := fun _ => 0
  frees := fun _ => 0

/-! ## 4. The queues -/

/-- `rtw_list_delete`: the frame leaves the queue it is on, whichever it is. -/
def listDelete (s : RecvPool) (id : Nat) : RecvPool :=
  { s with
    freeRecvQueue := s.freeRecvQueue.filter (· ≠ id)
    ucSwdecPendingQueue := s.ucSwdecPendingQueue.filter (·.id ≠ id)
    defragQ := fun i => (s.defragQ i).filter (·.id ≠ id)
    recvreorderCtrl := fun i tid =>
      { s.recvreorderCtrl i tid with
        pendingRecvframeQueue :=
          (s.recvreorderCtrl i tid).pendingRecvframeQueue.filter (·.id ≠ id) } }

/-- `rtw_free_recvframe`. -/
def rtwFreeRecvframe (s : RecvPool) (id : Nat) : RecvPool :=
  let s := s.listDelete id
  { s with
    freeRecvQueue := s.freeRecvQueue ++ [id]
    freeRecvframeCnt := s.freeRecvframeCnt + 1
    frees := Function.update s.frees id (s.frees id + 1) }

/-- `rtw_free_recvframe` on several frames, one after the other. -/
def freeAll (s : RecvPool) (fs : List RecvFrame) : RecvPool :=
  fs.foldl (fun s f => s.rtwFreeRecvframe f.id) s

/-- `rtw_enqueue_recvframe` to `uc_swdec_pending_queue`. -/
def enqueueSwdec (s : RecvPool) (f : RecvFrame) : RecvPool :=
  let s := s.listDelete f.id
  { s with ucSwdecPendingQueue := s.ucSwdecPendingQueue ++ [f] }

/-- The controller of a station and TID is replaced. -/
def setReorderCtrl (s : RecvPool) (i : StaId) (tid : Nat) (c : RecvReorderCtrl) : RecvPool :=
  { s with
    recvreorderCtrl := Function.update s.recvreorderCtrl i
      (Function.update (s.recvreorderCtrl i) tid c) }

/-! ## 5. The handler -/

/-- `mp_recv_frame`.  `MPwlanhdr_to_ethhdr` always succeeds, and a data frame that is indicated,
and so freed, is freed once more on the way out. -/
def mpRecvFrame (env : RecvEnv) (s : RecvPool) (f : RecvFrame) : RecvPool :=
  let a := env.rx.adapter
  if checkFwstate a wifiAsocState ∧ env.rxBindicatePkt ∧ getFrameType f.mem = wifiDataType ∧
      !rtwCannotRun a then
    (s.rtwFreeRecvframe f.id).rtwFreeRecvframe f.id
  else s.rtwFreeRecvframe f.id

/-- `recv_func_prehandle`: the frame is returned on `_SUCCESS` only. -/
def recvFuncPrehandle (env : RecvEnv) (s : RecvPool) (f : RecvFrame) :
    RecvPool × Option RecvFrame :=
  if env.mpMode then (mpRecvFrame env s f, none)
  else
    let c := validateRecvFrame env s.replay s.defragQ f
    let s := { s with replay := c.replay, defragQ := c.defragQ }.freeAll c.freed
    match c.ret, c.psta with
    | .success, some psta =>
      ({ s with preorderCtrl :=
          Function.update s.preorderCtrl c.frame.id (psta, c.frame.attrib.priority) },
        some c.frame)
    | _, _ => (s.rtwFreeRecvframe c.frame.id, none)

/-- Does `recv_func` keep the frame until the pairwise key is there? -/
def waitsForKey (env : RecvEnv) (f : RecvFrame) : Bool :=
  checkFwstate env.rx.adapter wifiStationState ∧ !isMcast f.attrib.ra ∧ 0 < f.attrib.encrypt ∧
    (f.attrib.bdecrypted = 0 ∨ env.swDecrypt) ∧ env.ndisauthtype = ndis80211AuthModeWpapsk ∧
    !env.busetkipkey

/-- The first frame of `uc_swdec_pending_queue` goes through `recv_func_posthandle`. -/
def takeSwdec (s : RecvPool) (waiting : Option RecvFrame) : Option RecvPool :=
  match s.ucSwdecPendingQueue with
  | [] => none
  | p :: t =>
    some { s with ucSwdecPendingQueue := t, phase := .posthandle waiting (.decryptor p) }

/-- `recv_func` from `recv_func_prehandle` on. -/
def handleFrame (env : RecvEnv) (s : RecvPool) (f : RecvFrame) : RecvPool :=
  match recvFuncPrehandle env s f with
  | (s, none) => { s with phase := .idle }
  | (s, some g) =>
    if waitsForKey env g then
      let s := { s.enqueueSwdec g with phase := .idle }
      if s.freeRecvframeCnt < nrRecvframe / 4 then (s.takeSwdec none).getD s else s
    else { s with phase := .posthandle none (.decryptor g) }

/-- `recv_func`, up to the next frame to be handled.  `recv_frame_monitor` frees the frame in
every case. -/
def recvFunc (env : RecvEnv) (s : RecvPool) (f : RecvFrame) : RecvPool :=
  let a := env.rx.adapter
  if checkFwstate a wifiMonitorState then { s.rtwFreeRecvframe f.id with phase := .idle }
  else if checkFwstate a wifiStationState ∧ env.busetkipkey then
    (s.takeSwdec (some f)).getD (handleFrame env s f)
  else handleFrame env s f

/-- `recv_func_posthandle` returns. -/
def finish (s : RecvPool) (waiting : Option RecvFrame) : RecvPool :=
  match waiting with
  | none => { s with phase := .idle }
  | some f => { s with phase := .recvFunc f }

/-- `recv_func_posthandle`, one call further. -/
def recvFuncPosthandle (env : RecvEnv) (s : RecvPool) (waiting : Option RecvFrame) :
    PostStage → RecvPool
  | .decryptor f =>
    match decryptor env f with
    | (.fail, g) => (s.rtwFreeRecvframe g.id).finish waiting
    | (_, g) => { s with phase := .posthandle waiting (.chkDefrag g) }
  | .chkDefrag f =>
    let r := recvframeChkDefrag env.mic env.rx.stas s.defragQ f
    let s := { s with defragQ := r.defragQ }.freeAll r.freed
    match r.ret with
    | none => s.finish waiting
    | some g => { s with phase := .posthandle waiting (.portctrl f.id g) }
  | .portctrl orig f =>
    if portctrl env f then { s with phase := .posthandle waiting (.indicate orig f) }
    else (s.rtwFreeRecvframe f.id).finish waiting
  | .indicate orig f =>
    let c := s.preorderCtrl f.id
    let r := processRecvIndicatepkts env.rx.adapter env.htOption (s.recvreorderCtrl c.1 c.2) f
    let s := (s.setReorderCtrl c.1 c.2 r.ctrl).freeAll (goneUp r.deliveries)
    if r.retval = .success then s.finish waiting
    else (s.rtwFreeRecvframe orig).finish waiting

end RecvPool

/-! ## 6. Runs -/

/-- What can happen: the tasklet takes a frame for what the hardware delivered, or gives it up
again (an error flag, no room for the copy, a group frame nobody wants); a step of `recv_func`;
a reordering timer; a change of a block-ack session; `rtw_free_uc_swdec_pending_queue`. -/
inductive RxEvent where
  | arrive (d : RxDesc) (buf : List UInt8) (rxData rxTail : Nat)
  | discard
  | run (env : RecvEnv)
  | timeout (a : Adapter) (i : StaId) (tid : Nat)
  | session (i : StaId) (tid : Nat) (enable : Bool) (indicateSeq wsizeB : Nat)
  | freeUcSwdec

namespace RecvPool

/-- `rtw_alloc_recvframe` and what the tasklet fills in. -/
def arrive (s : RecvPool) (d : RxDesc) (buf : List UInt8) (rxData rxTail : Nat) : RecvPool :=
  match s.phase, s.freeRecvQueue with
  | .idle, id :: t =>
    { s with
      freeRecvQueue := t
      freeRecvframeCnt := s.freeRecvframeCnt - 1
      allocs := Function.update s.allocs id (s.allocs id + 1)
      phase := .filled ⟨id, queryRxDescStatus d, buf, rxData, rxTail⟩ }
  | _, _ => s

def step (s : RecvPool) : RxEvent → RecvPool
  | .arrive d buf rxData rxTail => s.arrive d buf rxData rxTail
  | .discard =>
    match s.phase with
    | .filled f => { s.rtwFreeRecvframe f.id with phase := .idle }
    | _ => s
  | .run env =>
    match s.phase with
    | .idle => s
    | .filled f => { s with phase := .recvFunc f }
    | .recvFunc f => s.recvFunc env f
    | .posthandle waiting stage => s.recvFuncPosthandle env waiting stage
  | .timeout a i tid =>
    let r := rtwReorderingCtrlTimeoutHandler a (s.recvreorderCtrl i tid)
    (s.setReorderCtrl i tid r.2).freeAll (goneUp r.1)
  | .session i tid enable indicateSeq wsizeB =>
    s.setReorderCtrl i tid
      { s.recvreorderCtrl i tid with enable := enable, indicateSeq := indicateSeq, wsizeB := wsizeB }
  | .freeUcSwdec => { s with ucSwdecPendingQueue := [] }.freeAll s.ucSwdecPendingQueue

def run (s : RecvPool) (es : List RxEvent) : RecvPool := es.foldl step s

/-! ## 7. Conservation -/

/-- The places a frame can be in. -/
inductive Place where
  | free
  | swdec
  | defrag (i : StaId)
  | pending (i : StaId) (tid : Nat)
  | handler
deriving DecidableEq

/-- The frames in a place. -/
def framesAt (s : RecvPool) : Place → List Nat
  | .free => s.freeRecvQueue
  | .swdec => s.ucSwdecPendingQueue.map (·.id)
  | .defrag i => (s.defragQ i).map (·.id)
  | .pending i tid => (s.recvreorderCtrl i tid).pendingRecvframeQueue.map (·.id)
  | .handler => s.phase.held.map (·.id)

/-- **The frames are conserved.**  Each is in exactly one place, and there once; it has been
given back as often as it was taken, but for the time it is away; and the counter counts the
free ones. -/
structure Conserved (s : RecvPool) : Prop where
  place : ∀ id < nrRecvframe, ∃! p, id ∈ s.framesAt p
  once : ∀ p, (s.framesAt p).Nodup
  balance : ∀ id < nrRecvframe,
    s.allocs id = s.frees id + if id ∈ s.freeRecvQueue then 0 else 1
  cnt : s.freeRecvframeCnt = s.freeRecvQueue.length
  cnt_le : s.freeRecvframeCnt ≤ nrRecvframe

/-! ## 8. When a step keeps them -/

/-- Does the frame go to the reordering queue? -/
def Queued (ctrl : RecvReorderCtrl) (g : RecvFrame) : Prop :=
  ctrl.enable = true ∧ (g.attrib.amsdu = 0 → g.attrib.qos = 1)

/-- The frame as it is indicated: an A-MSDU is not converted as a whole. -/
def ethernetForm (a : Adapter) (f : RecvFrame) : Option RecvFrame :=
  if f.attrib.amsdu = 0 then wlanhdrToEthhdr a f else some f

/-- Behind the window, or a duplicate of a frame that waits. -/
def NotWanted (ctrl : RecvReorderCtrl) (g : RecvFrame) : Prop :=
  ∀ c, checkIndicateSeq ctrl g.attrib.seqNum = some c →
    enqueueReorderRecvframe g c.pendingRecvframeQueue = none

/-- The frames that are no longer waited for once `g` is in the queue. -/
def Due (ctrl : RecvReorderCtrl) (g x : RecvFrame) : Prop :=
  ∃ c queue, checkIndicateSeq ctrl g.attrib.seqNum = some c ∧
    enqueueReorderRecvframe g c.pendingRecvframeQueue = some queue ∧
    x ∈ (indicateLoop c.indicateSeq queue).1

/-- Is the frame turned away when it is to go up?  It has no Ethernet form, or it is not wanted
in the queue, or it is to go up at once and the adapter cannot run. -/
def TurnedAway (a : Adapter) (htOption : Bool) (ctrl : RecvReorderCtrl) (f : RecvFrame) : Prop :=
  if htOption then
    match ethernetForm a f with
    | none => True
    | some g => (Queued ctrl g ∧ NotWanted ctrl g) ∨
        (g.attrib.amsdu = 0 ∧ g.attrib.qos ≠ 1 ∧ rtwCannotRun a = true)
  else wlanhdrToEthhdr a f = none ∨ rtwCannotRun a = true

/-- Does the frame make one that is not an A-MSDU due in the reordering queue? -/
def Releases (a : Adapter) (ctrl : RecvReorderCtrl) (f : RecvFrame) : Prop :=
  ∃ g, ethernetForm a f = some g ∧ Queued ctrl g ∧ ∃ x, Due ctrl g x ∧ x.attrib.amsdu = 0

/-- **When the indication keeps the frames.**  A frame joined from fragments is not turned away,
and with HT and an adapter that cannot run no frame is turned away or released. -/
def IndicateOk (a : Adapter) (htOption : Bool) (ctrl : RecvReorderCtrl) (orig : Nat)
    (f : RecvFrame) : Prop :=
  (orig ≠ f.id → ¬TurnedAway a htOption ctrl f) ∧
  (htOption = true → rtwCannotRun a = true →
    ¬TurnedAway a htOption ctrl f ∧ ¬Releases a ctrl f)

/-- **When the check of a new frame keeps the frames.**  In the test mode no data frame is
indicated; otherwise no management frame is a last fragment or fails the MIC check. -/
def PrehandleOk (env : RecvEnv) (f : RecvFrame) : Prop :=
  if env.mpMode then
    ¬(checkFwstate env.rx.adapter wifiAsocState = true ∧ env.rxBindicatePkt = true ∧
      getFrameType f.mem = wifiDataType ∧ rtwCannotRun env.rx.adapter = false)
  else
    frameVersion f = 0 → getFrameType f.mem = wifiMgtType → getMFrag f.mem = false →
      getFragNum f.mem = 0 ∧
      (getPrivacy f.mem = true →
        (recvframeChkmic env.mic env.rx.stas (readFrameControl f)).1 ≠ .fail)

/-- Does this step of `recv_func` handle the frame itself? -/
def Handles (s : RecvPool) (env : RecvEnv) : Prop :=
  checkFwstate env.rx.adapter wifiMonitorState = false ∧
  ¬(checkFwstate env.rx.adapter wifiStationState = true ∧ env.busetkipkey = true ∧
    s.ucSwdecPendingQueue ≠ [])

/-- **When a step keeps the frames.** -/
def StepOk (s : RecvPool) : RxEvent → Prop
  | .run env =>
    match s.phase with
    | .recvFunc f => s.Handles env → PrehandleOk env f
    | .posthandle _ (.indicate orig f) =>
      IndicateOk env.rx.adapter env.htOption
        (s.recvreorderCtrl (s.preorderCtrl f.id).1 (s.preorderCtrl f.id).2) orig f
    | _ => True
  | _ => True

/-- Every step of the run is one that keeps the frames. -/
def RunOk : RecvPool → List RxEvent → Prop
  | _, [] => True
  | s, e :: es => s.StepOk e ∧ RunOk (s.step e) es

end RecvPool

end Rtl8723bs
