/-
# `rtw_xmitframe_coalesce`

A queued packet becomes one or more 802.11 fragments in the transmit buffer: header, IV, in the
first fragment the LLC header, a piece of the packet, and room for the ICV under software
encryption.  `xmitframe_addmic` then adds the Michael MIC of a TKIP packet, and
`xmitframe_swencrypt` runs `rtw_wep_encrypt`, `rtw_tkip_encrypt` or `rtw_aes_encrypt` over the
buffer.  Each of the four finds the fragments again by its own arithmetic.

Memory is addressed absolutely: `buf_addr` is a number, and `RND4` rounds addresses.  The ciphers'
primitives are parameters (`SwCrypto`).
-/
import Rtl8723bs.Tx.Attrib
import Rtl8723bs.Security.Ccmp
import Rtl8723bs.Security.Tkip

namespace Rtl8723bs

/-! ## 1. Stores -/

/-- A little-endian 16-bit store. -/
def setLe16 (m : Mem) (off v : Nat) : Mem :=
  overwrite m off [UInt8.ofNat v, UInt8.ofNat (v / 256)]

/-- A store at `off` of two bytes leaves the rest. -/
theorem setLe16_of_le {m : Mem} {off v x : Nat} (h : off + 2 ≤ x) : setLe16 m off v x = m x := by
  unfold setLe16
  exact overwrite_of_le h

theorem setLe16_of_lt {m : Mem} {off v x : Nat} (h : x < off) : setLe16 m off v x = m x := by
  unfold setLe16
  exact overwrite_of_lt h

/-- What was stored is loaded, as sixteen bits. -/
theorem le16_setLe16 (m : Mem) (off v : Nat) : le16 (setLe16 m off v) off = v % 65536 := by
  have hpair := readBytes_overwrite m off [UInt8.ofNat v, UInt8.ofNat (v / 256)]
  simp only [readBytes, List.length_cons, List.length_nil, List.cons.injEq, and_true] at hpair
  unfold le16 setLe16
  rw [hpair.1, hpair.2, UInt8.toNat_ofNat', UInt8.toNat_ofNat']
  omega

/-- `*(u16 *)p |= bits`. -/
def orLe16 (m : Mem) (off bits : Nat) : Mem := setLe16 m off (le16 m off ||| bits)

/-- `*(u16 *)p &= bits`. -/
def andLe16 (m : Mem) (off bits : Nat) : Mem := setLe16 m off (le16 m off &&& bits)

def writeAddr (m : Mem) (off : Nat) (x : MacAddr) : Mem :=
  overwrite m off [x.b0, x.b1, x.b2, x.b3, x.b4, x.b5]

def setMFrag (m : Mem) (pbuf : Nat) : Mem := orLe16 m pbuf 0x0400
def clearMFrag (m : Mem) (pbuf : Nat) : Mem := andLe16 m pbuf 0xfbff

/-- `RND4`. -/
def rnd4 (x : Nat) : Nat := (x / 4 + if x % 4 = 0 then 0 else 1) * 4

theorem le_rnd4 (x : Nat) : x ≤ rnd4 x := by
  unfold rnd4
  split
  · omega
  · omega

/-! ## 2. The header -/

def wlanhdrOffset : Nat := 64

/-- The addresses and the DS bits; is there a QoS field? -/
def wlanhdrAddrs (env : TxEnv) (m : Mem) (hdr : Nat) (a : PktAttrib) : Option (Mem × Bool) :=
  let write (m : Mem) (a1 a2 a3 : MacAddr) : Mem :=
    writeAddr (writeAddr (writeAddr m (hdr + 4) a1) (hdr + 10) a2) (hdr + 16) a3
  if checkFwstate env.adapter wifiStationState then
    some (write (orLe16 m hdr 0x0100) env.adapter.bssid a.ta a.dst, env.qosOption)
  else if checkFwstate env.adapter wifiApState then
    some (write (orLe16 m hdr 0x0200) a.dst env.adapter.bssid a.src, a.qosEn)
  else if checkFwstate env.adapter wifiAdhocState ∨
      checkFwstate env.adapter wifiAdhocMasterState then
    some (write m a.dst a.ta env.adapter.bssid, a.qosEn)
  else none

/-- The QoS field at `qc`. -/
def wlanhdrQos (m : Mem) (qc : Nat) (a : PktAttrib) : Mem :=
  let m := if a.priority ≠ 0 then orLe16 m qc (a.priority % 16) else m
  let m := orLe16 m qc (a.eosp % 2 * 16)
  let m := orLe16 m qc (a.ackPolicy % 4 * 32)
  if a.amsdu ≠ 0 then orLe16 m qc (a.amsdu % 2 * 128) else m

/-- `rtw_make_wlanhdr` clears the header first. -/
theorem le16_zeroed (m : Mem) (hdr : Nat) {k : Nat} (hk : k + 1 < wlanhdrOffset) :
    le16 (overwrite m hdr (List.replicate wlanhdrOffset 0)) (hdr + k) = 0 := by
  have hbyte : ∀ i < wlanhdrOffset,
      overwrite m hdr (List.replicate wlanhdrOffset 0) (hdr + i) = 0 := by
    intro i hi
    unfold overwrite
    rw [if_pos (by rw [List.length_replicate]; omega), Nat.add_sub_cancel_left,
      List.getD_eq_getElem _ _ (by rw [List.length_replicate]; exact hi), List.getElem_replicate]
  unfold le16
  rw [hbyte k (by omega), Nat.add_assoc, hbyte (k + 1) hk]
  rfl

/-- `rtw_make_wlanhdr`: the memory, the attributes and the stations after it; `none` is
`_FAIL`. -/
def rtwMakeWlanhdr (t : StaTable) (env : TxEnv) (stas : StaId → TxSta) (m : Mem) (hdr : Nat)
    (a : PktAttrib) : Option (Mem × PktAttrib × (StaId → TxSta)) :=
  let m := overwrite m hdr (List.replicate wlanhdrOffset 0)
  let m := orLe16 (andLe16 m hdr 0xff03) hdr a.subtype
  if a.subtype &&& wifiDataType = 0 then some (m, a, stas)
  else do
    let (m, qos) ← wlanhdrAddrs env m hdr a
    let m := if a.mdata then orLe16 m hdr 0x2000 else m
    let m := if a.encrypt ≠ 0 then orLe16 m hdr 0x4000 else m
    let m := if qos then wlanhdrQos m (hdr + a.hdrlen - 2) a else m
    if rtwGetStainfo t a.ra ≠ some a.psta ∨ (stas a.psta).fwLinked = false then none
    else
      let seqnum := ((stas a.psta).txseqTid a.priority + 1) % 4096
      let psta := { stas a.psta with
        txseqTid := Function.update (stas a.psta).txseqTid a.priority seqnum }
      let m := setLe16 m (hdr + 22) (le16 m (hdr + 22) &&& 0x000f ||| seqnum * 16)
      some (m, { a with seqnum := seqnum }, Function.update stas a.psta psta)

/-! ## 3. The fragments -/

def txdescOffset : Nat := 40

/-- `rtw_put_snap`: the LLC and SNAP header of an ethertype. -/
def rtwPutSnap (hProto : Nat) : List UInt8 :=
  let oui : UInt8 := if hProto = 0x8137 ∨ hProto = 0x80f3 then 0xf8 else 0x00
  [0xaa, 0xaa, 0x03, 0x00, 0x00, oui, UInt8.ofNat (hProto / 256), UInt8.ofNat hProto]

/-- A fragment as it was laid out: where its header starts, and how many bytes lie between IV
and ICV. -/
structure Frag where
  hdr : Nat
  len : Nat
deriving DecidableEq, Repr

/-- What the loop leaves: the buffer, the fragments in order, `nr_frags` and `last_txcmdsz`. -/
structure Laid where
  mem : Mem
  frags : List Frag
  nrFrags : Nat
  lastTxcmdsz : Nat

/-- The ICV that is kept room for. -/
def swIcv (a : PktAttrib) : List UInt8 :=
  if 0 < a.icvLen ∧ a.bswenc then readBytes a.icv 0 a.icvLen else []

/-- The LLC header is in the first fragment only. -/
def fragSnap (a : PktAttrib) (frgInx : Nat) : List UInt8 :=
  if frgInx = 0 then rtwPutSnap a.etherType else []

/-- `mpdu_len` once header, IV, LLC header and ICV are taken off. -/
def mpduLen (a : PktAttrib) (fragLen frgInx : Nat) : Nat :=
  fragLen - 4 - a.hdrlen - a.ivLen - (fragSnap a frgInx).length - (swIcv a).length

/-- The piece of the packet that is read; multicast packets are not fragmented. -/
def fragData (a : PktAttrib) (fragLen frgInx : Nat) (pktfile : List UInt8) : List UInt8 :=
  pktfile.take (if isMcast a.ra then a.pktlen else mpduLen a fragLen frgInx)

/-- All that is written behind a header. -/
def fragBody (a : PktAttrib) (fragLen frgInx : Nat) (pktfile : List UInt8) : List UInt8 :=
  readBytes a.iv 0 a.ivLen ++ fragSnap a frgInx ++ fragData a fragLen frgInx pktfile ++ swIcv a

/-- The `while (1)` loop: `pktfile` is what is left of the packet.  `none` when the rounds allowed
are not enough. -/
def coalesceLoop (a : PktAttrib) (fragLen pbufStart : Nat) :
    Nat → Mem → Nat → Nat → List UInt8 → Option Laid
  | 0, _, _, _, _ => none
  | fuel + 1, m, memStart, frgInx, pktfile =>
    let m := setMFrag m memStart
    let llcSz := (fragSnap a frgInx).length
    let memSz := (fragData a fragLen frgInx pktfile).length
    let body := fragBody a fragLen frgInx pktfile
    let m := overwrite m (memStart + a.hdrlen) body
    let pframe := memStart + a.hdrlen + body.length
    let pktfile := pktfile.drop memSz
    let frag : Frag := ⟨memStart, llcSz + memSz⟩
    if isMcast a.ra ∨ pktfile = [] then
      some {
        mem := clearMFrag m memStart
        frags := [frag]
        nrFrags := frgInx + 1
        lastTxcmdsz := a.hdrlen + a.ivLen + (if frgInx + 1 = 1 then llcSz else 0) +
          (if a.bswenc then a.icvLen else 0) + memSz }
    else
      let next := rnd4 pframe + txdescOffset
      let m := overwrite m next (readBytes m (pbufStart + txdescOffset) a.hdrlen)
      (coalesceLoop a fragLen pbufStart fuel m next (frgInx + 1) pktfile).map fun l =>
        { l with frags := frag :: l.frags }

/-! ## 4. MIC and encryption -/

/-- The primitives of the software ciphers. -/
structure SwCrypto where
  /-- `aes128k128d`. -/
  aes : List UInt8 → Ccm.Block → Ccm.Block
  /-- `arcfour_init` and `arcfour_encrypt`. -/
  arcfour : List UInt8 → List UInt8 → List UInt8
  /-- `getcrc32`, as four bytes. -/
  crc32 : List UInt8 → List UInt8
  /-- `phase1` and `phase2`: the RC4 key from the temporal key, `ta` and the TSC. -/
  tkipMix : List UInt8 → MacAddr → List UInt8 → List UInt8
  /-- `rtw_secmicsetkey`, `rtw_secmicappend` and `rtw_secgetmic`. -/
  michael : List UInt8 → List UInt8 → List UInt8

/-- The fragments in `xmitframe_addmic`: the bytes fed to the MIC, and where the last one ends. -/
def addmicLoop (a : PktAttrib) (fragLen : Nat) (m : Mem) : Nat → Nat → Nat → List UInt8 × Nat
  | 0, _, payload => ([], payload)
  | k + 1, curfragnum, payload =>
    let payload := rnd4 payload + a.hdrlen + a.ivLen
    let icv := if a.bswenc then a.icvLen else 0
    if curfragnum + 1 = a.nrFrags then
      let length := a.lastTxcmdsz - a.hdrlen - a.ivLen - icv
      let (fed, stop) := addmicLoop a fragLen m k (curfragnum + 1) (payload + length)
      (readBytes m payload length ++ fed, stop)
    else
      let length := fragLen - a.hdrlen - a.ivLen - icv
      let (fed, stop) := addmicLoop a fragLen m k (curfragnum + 1) (payload + length + a.icvLen)
      (readBytes m payload length ++ fed, stop)

/-- DA, SA and priority, which Michael authenticates. -/
def micHeader (m : Mem) (pframe : Nat) (a : PktAttrib) : List UInt8 :=
  let toDs := m (pframe + 1) &&& 1 ≠ 0
  let frDs := m (pframe + 1) &&& 2 ≠ 0
  let da := if toDs then pframe + 16 else pframe + 4
  let sa :=
    if toDs then if frDs then pframe + 24 else pframe + 10
    else if frDs then pframe + 16 else pframe + 10
  readBytes m da 6 ++ readBytes m sa 6 ++
    [if a.qosEn then UInt8.ofNat a.priority else 0, 0, 0, 0]

/-- The MIC key. -/
def txMicKey (sec : SecurityPriv) (a : PktAttrib) : List UInt8 :=
  if isMcast a.ra then sec.dot118021XGrptxmickey else a.dot11tkiptxmickey

/-- `xmitframe_addmic`; `none` is `_FAIL`, for an all-zero MIC key. -/
def xmitframeAddmic (c : SwCrypto) (sec : SecurityPriv) (fragLen bufAddr : Nat) (m : Mem)
    (a : PktAttrib) : Option (Mem × PktAttrib) :=
  if a.encrypt ≠ encTkip then some (m, a)
  else if txMicKey sec a = List.replicate 16 0 then none
  else
    let pframe := bufAddr + txdescOffset
    let (fed, stop) := addmicLoop a fragLen m a.nrFrags 0 pframe
    let mic := c.michael (txMicKey sec a) (micHeader m pframe a ++ fed)
    some (overwrite m stop mic, { a with lastTxcmdsz := a.lastTxcmdsz + 8 })

/-- The loop of the three encryptors: the header pointer and the length of each fragment. -/
def fragVisits (a : PktAttrib) (fragLen : Nat) : Nat → Nat → Nat → List (Nat × Nat)
  | 0, _, _ => []
  | k + 1, curfragnum, pframe =>
    if curfragnum + 1 = a.nrFrags then
      (pframe, a.lastTxcmdsz - a.hdrlen - a.ivLen - a.icvLen) ::
        fragVisits a fragLen k (curfragnum + 1) pframe
    else
      (pframe, fragLen - a.hdrlen - a.ivLen - a.icvLen) ::
        fragVisits a fragLen k (curfragnum + 1) (rnd4 (pframe + fragLen))

/-- What the encryptor of the packet's cipher visits. -/
def encryptVisits (a : PktAttrib) (fragLen bufAddr : Nat) : List (Nat × Nat) :=
  fragVisits a fragLen a.nrFrags 0 (bufAddr + txdescOffset)

/-- Payload and ICV of one fragment under RC4. -/
def arcfourFragment (c : SwCrypto) (key : List UInt8) (a : PktAttrib) (m : Mem) (v : Nat × Nat) :
    Mem :=
  let payload := v.1 + a.ivLen + a.hdrlen
  let data := readBytes m payload v.2
  overwrite m payload (c.arcfour key (data ++ c.crc32 data))

/-- `rtw_wep_encrypt`. -/
def rtwWepEncrypt (c : SwCrypto) (sec : SecurityPriv) (a : PktAttrib) (fragLen bufAddr : Nat)
    (m : Mem) : Mem :=
  if a.encrypt = encWep40 ∨ a.encrypt = encWep104 then
    (encryptVisits a fragLen bufAddr).foldl (fun m v =>
      arcfourFragment c (readBytes m (v.1 + a.hdrlen) 3 ++ sec.dot11DefKey) a m v) m
  else m

/-- The temporal key of `rtw_tkip_encrypt` and `rtw_aes_encrypt`. -/
def prwskey (sec : SecurityPriv) (a : PktAttrib) : List UInt8 :=
  if isMcast a.ra then sec.dot118021XGrpKey else a.dot118021xUncstKey

/-- `rtw_tkip_encrypt`. -/
def rtwTkipEncrypt (c : SwCrypto) (sec : SecurityPriv) (a : PktAttrib) (fragLen bufAddr : Nat)
    (m : Mem) : Mem :=
  if a.encrypt = encTkip then
    (encryptVisits a fragLen bufAddr).foldl (fun m v =>
      arcfourFragment c (c.tkipMix (prwskey sec a) a.ta (getTkipPn m (v.1 + a.hdrlen))) a m v) m
  else m

/-- `rtw_aes_encrypt`. -/
def rtwAesEncrypt (c : SwCrypto) (sec : SecurityPriv) (a : PktAttrib) (fragLen bufAddr : Nat)
    (m : Mem) : Mem :=
  if a.encrypt = encAes then
    (encryptVisits a fragLen bufAddr).foldl (fun m v =>
      let sealed := aesCipher (c.aes (prwskey sec a)) a.hdrlen (fun i => m (v.1 + i)) v.2
      fun x => if v.1 ≤ x then sealed (x - v.1) else m x) m
  else m

/-- `xmitframe_swencrypt`. -/
def xmitframeSwencrypt (c : SwCrypto) (sec : SecurityPriv) (a : PktAttrib)
    (fragLen bufAddr : Nat) (m : Mem) : Mem :=
  if a.bswenc then
    if a.encrypt = encWep40 ∨ a.encrypt = encWep104 then rtwWepEncrypt c sec a fragLen bufAddr m
    else if a.encrypt = encTkip then rtwTkipEncrypt c sec a fragLen bufAddr m
    else if a.encrypt = encAes then rtwAesEncrypt c sec a fragLen bufAddr m
    else m
  else m

/-! ## 5. The function -/

/-- What `rtw_xmitframe_coalesce` leaves: the fragments as laid out, the buffer as it is handed
to encryption and as it is in the end, the attributes and the stations. -/
structure Coalesced where
  frags : List Frag
  handed : Mem
  mem : Mem
  attrib : PktAttrib
  stas : StaId → TxSta

/-- `rtw_xmitframe_coalesce`; `none` is `_FAIL`. -/
def rtwXmitframeCoalesce (c : SwCrypto) (sec : SecurityPriv) (t : StaTable) (env : TxEnv)
    (stas : StaId → TxSta) (fragLen bufAddr : Nat) (m : Mem) (pkt : List UInt8) (a : PktAttrib) :
    Option Coalesced :=
  if bufAddr = 0 then none
  else do
    let memStart := bufAddr + txdescOffset
    let (m, a, stas) ← rtwMakeWlanhdr t env stas m memStart a
    let pktfile := pkt.drop a.pktHdrlen
    let laid ← coalesceLoop a fragLen bufAddr (pktfile.length + 1) m memStart 0 pktfile
    let a := { a with nrFrags := laid.nrFrags, lastTxcmdsz := laid.lastTxcmdsz }
    let (m, a) ← xmitframeAddmic c sec fragLen bufAddr laid.mem a
    some {
      frags := laid.frags
      handed := m
      mem := xmitframeSwencrypt c sec a fragLen bufAddr m
      attrib := a
      stas := stas }

end Rtl8723bs
