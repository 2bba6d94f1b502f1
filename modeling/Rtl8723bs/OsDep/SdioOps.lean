/-
# SDIO register access

A register is read and written byte by byte with CMD52 or as a block with CMD53.  `sdio_read32`,
`sdio_readN`, `sdio_write32` and `sdio_writeN` take CMD52 for the first 256 registers and while the
MAC is off or asleep, and CMD53 otherwise; an address that is not a multiple of four is read, and by
`sdio_writeN` written, through a bounce buffer from the multiple below it on.

The kernel's SDIO functions are modelled as documented: a command succeeds and moves its bytes, or
fails with an error.  `sdio_read32` does not free the bounce buffer if the command fails, and
`sdio_writeN` reads four bytes into a bounce buffer that may be shorter.

`sdio_access_iff` says when an access is right.
-/
import Rtl8723bs.Wifi

namespace Rtl8723bs.Sdio

/-! ## 1. The card and the host -/

/-- What the accesses meet: the error each command returns and how much of a failed one gets
through, what a new buffer holds and for which sizes there is one, and `bMacPwrCtrlOn` and
`bFwCurrentInPSMode`. -/
structure Host where
  fail : Nat → Int
  part : Nat → Nat
  junk : Mem
  mallocOk : Nat → Bool
  bMacPwrCtrlOn : Bool
  bFwCurrentInPSMode : Bool

/-- The bytes of the card, the commands issued so far, and what the driver keeps of its errors. -/
structure Card where
  dev : Mem
  cmds : Nat
  surpriseRemoved : Bool
  continualIoError : Nat

/-- The memory an access has to do with: the caller's buffer, or the local value it returns or
stores, and the bounce buffer. -/
inductive Buf
  | caller
  | bounce
deriving DecidableEq, Repr

/-- Bytes of a buffer that are read or written. -/
structure Access where
  buf : Buf
  start : Nat
  len : Nat
deriving DecidableEq, Repr

/-- The card, the bytes touched, and the sizes allocated and freed. -/
structure World extends Card where
  log : List Access
  allocs : List Nat
  frees : List Nat

namespace World

def touch (w : World) (buf : Buf) (start len : Nat) : World :=
  { w with log := w.log ++ [⟨buf, start, len⟩] }

def rtwMalloc (w : World) (n : Nat) : World := { w with allocs := w.allocs ++ [n] }

def rtwMfree (w : World) (n : Nat) : World := { w with frees := w.frees ++ [n] }

end World

/-- What a read gives: the error, the bytes put to the start of the buffer, and the world. -/
structure Read where
  err : Int
  bytes : List UInt8
  world : World

/-! ## 2. The functions of the kernel -/

def eperm : Int := 1
def enodev : Int := 19
def eshutdown : Int := 108
def etimedout : Int := 110
def enomedium : Int := 123

/-- `sdio_readb`: a failed read gives `0xFF`. -/
def sdioReadb (h : Host) (w : World) (addr : Nat) : Int × UInt8 × World :=
  (h.fail w.cmds, if h.fail w.cmds = 0 then w.dev addr else 0xFF, { w with cmds := w.cmds + 1 })

/-- A command that writes bytes. -/
def store (h : Host) (w : World) (addr : Nat) (bytes : List UInt8) : Int × World :=
  (h.fail w.cmds, { w with
    cmds := w.cmds + 1
    dev := overwrite w.dev addr
      (if h.fail w.cmds = 0 then bytes else bytes.take (h.part w.cmds)) })

/-- `sdio_writeb`. -/
def sdioWriteb (h : Host) (w : World) (v : UInt8) (addr : Nat) : Int × World := store h w addr [v]

/-- `sdio_memcpy_fromio`: nothing is done for no bytes. -/
def sdioMemcpyFromio (h : Host) (w : World) (addr count : Nat) : Read :=
  if count = 0 then ⟨0, [], w⟩
  else
    ⟨h.fail w.cmds, if h.fail w.cmds = 0 then readBytes w.dev addr count
      else (readBytes w.dev addr count).take (h.part w.cmds), { w with cmds := w.cmds + 1 }⟩

/-- `sdio_memcpy_toio`. -/
def sdioMemcpyToio (h : Host) (w : World) (addr : Nat) (bytes : List UInt8) : Int × World :=
  if bytes = [] then (0, w) else store h w addr bytes

/-- Four bytes as `le32_to_cpu` takes them. -/
def le32 (m : Mem) (p : Nat) : UInt32 := UInt32.ofNat (le16 m p + 2 ^ 16 * le16 m (p + 2))

/-- Four bytes as `cpu_to_le32` gives them. -/
def le32Bytes (v : UInt32) : List UInt8 :=
  [UInt8.ofNat v.toNat, UInt8.ofNat (v.toNat / 2 ^ 8), UInt8.ofNat (v.toNat / 2 ^ 16),
    UInt8.ofNat (v.toNat / 2 ^ 24)]

/-- `SDIO_ERR_VAL32`, and what `sdio_readl` gives for a failed command. -/
def sdioErrVal32 : UInt32 := 0xFFFFFFFF

/-! ## 3. `sdio_ops_linux.c` -/

/-- The loop of `_sd_cmd52_read`, also that of `_sd_read` for one byte or two: it stops at an
error. -/
def readbLoop (h : Host) (buf : Buf) : Nat → Nat → Nat → World → Read
  | 0, _, _, w => ⟨0, [], w⟩
  | n + 1, addr, i, w =>
    let (err, v, w) := sdioReadb h (w.touch buf i 1) addr
    if err = 0 then
      let r := readbLoop h buf n (addr + 1) (i + 1) w
      { r with bytes := v :: r.bytes }
    else ⟨err, [v], w⟩

/-- The loop of `_sd_cmd52_write`, also that of `_sd_write` for one byte or two. -/
def writebLoop (h : Host) (buf : Buf) : List UInt8 → Nat → Nat → World → Int × World
  | [], _, _, w => (0, w)
  | v :: bytes, addr, i, w =>
    let (err, w) := sdioWriteb h (w.touch buf i 1) v addr
    if err = 0 then writebLoop h buf bytes (addr + 1) (i + 1) w else (err, w)

/-- `sd_cmd52_read`. -/
def sdCmd52Read (h : Host) (w : World) (addr cnt : Nat) (buf : Buf) : Read :=
  if w.surpriseRemoved then ⟨0, [], w⟩ else readbLoop h buf cnt addr 0 w

/-- `sd_cmd52_write` of the bytes at the start of a buffer. -/
def sdCmd52Write (h : Host) (w : World) (addr : Nat) (bytes : List UInt8) (buf : Buf) :
    Int × World :=
  if w.surpriseRemoved then (0, w) else writebLoop h buf bytes addr 0 w

/-- The errors after which `_sd_read` takes the card for removed. -/
def Gone (err : Int) : Prop :=
  err = -eshutdown ∨ err = -enodev ∨ err = -enomedium ∨ err = -etimedout

instance (err : Int) : Decidable (Gone err) := inferInstanceAs (Decidable (_ ∨ _))

/-- `sd_read`.  CMD53 is given the whole of its buffer. -/
def sdRead (h : Host) (w : World) (addr cnt : Nat) (buf : Buf) : Read :=
  if w.surpriseRemoved then ⟨-eperm, [], w⟩
  else if cnt = 1 ∨ cnt = 2 then readbLoop h buf cnt addr 0 w
  else
    let r := sdioMemcpyFromio h (w.touch buf 0 cnt) addr cnt
    { r with world := { r.world with surpriseRemoved := decide (Gone r.err) } }

/-- `sd_write` of the bytes at the start of a buffer. -/
def sdWrite (h : Host) (w : World) (addr : Nat) (bytes : List UInt8) (buf : Buf) : Int × World :=
  if w.surpriseRemoved then (-eperm, w)
  else if bytes.length = 1 ∨ bytes.length = 2 then writebLoop h buf bytes addr 0 w
  else sdioMemcpyToio h (w.touch buf 0 bytes.length) addr bytes

/-- `sd_read32` without a place for the error, so that it does not try again. -/
def sdRead32 (h : Host) (w : World) (addr : Nat) : UInt32 × World :=
  if w.surpriseRemoved then (0, w)
  else
    let r := sdioMemcpyFromio h w addr 4
    (if r.err = 0 then le32 (overwrite (fun _ => 0) 0 r.bytes) 0 else sdioErrVal32, r.world)

/-- `SD_IO_TRY_CNT`, and `MAX_CONTINUAL_IO_ERR`. -/
def sdIoTryCnt : Nat := 8

/-- The loop of `sd_write32` that tries again. -/
def sdWrite32Again (h : Host) (addr : Nat) (v : UInt32) : Nat → Int → World → Int × World
  | 0, err, w => (err, w)
  | n + 1, _, w =>
    let (err, w) := sdioMemcpyToio h w addr (le32Bytes v)
    if err = 0 then (err, { w with continualIoError := 0 })
    else
      let removed := w.surpriseRemoved || decide (err = -eshutdown ∨ err = -enodev)
      let w := { w with continualIoError := w.continualIoError + 1 }
      if sdIoTryCnt < w.continualIoError then (err, { w with surpriseRemoved := true })
      else sdWrite32Again h addr v n err { w with surpriseRemoved := removed }

/-- `sd_write32`; `err` is left as it is if the card is removed. -/
def sdWrite32 (h : Host) (w : World) (addr : Nat) (v : UInt32) (err : Int) : Int × World :=
  if w.surpriseRemoved then (err, w)
  else
    let (err, w) := sdioMemcpyToio h w addr (le32Bytes v)
    if err = 0 then (err, w) else sdWrite32Again h addr v sdIoTryCnt 0 w

/-! ## 4. `sdio_ops.c` -/

def sdioLocalDeviceId : Nat := 0
def wlanTxHiqDeviceId : Nat := 4
def wlanTxMiqDeviceId : Nat := 5
def wlanTxLoqDeviceId : Nat := 6
def wlanRx0ffDeviceId : Nat := 7
def wlanIoregDeviceId : Nat := 8

/-- `get_deviceid`. -/
def getDeviceid (addr : UInt32) : Nat :=
  match addr.toNat / 2 ^ 16 with
  | 0x1025 => sdioLocalDeviceId
  | 0x1026 => wlanIoregDeviceId
  | 0x1031 => wlanTxHiqDeviceId
  | 0x1032 => wlanTxMiqDeviceId
  | 0x1033 => wlanTxLoqDeviceId
  | 0x1034 => wlanRx0ffDeviceId
  | _ => wlanIoregDeviceId

/-- `*poffset` of `_cvrt2ftaddr`, with the masks `SDIO_LOCAL_MSK`, `WLAN_FIFO_MSK`, `WLAN_RX0FF_MSK`
and `WLAN_IOREG_MSK`. -/
def offsetOf (addr : UInt32) : Nat :=
  let deviceId := getDeviceid addr
  if deviceId = sdioLocalDeviceId then addr.toNat &&& 0x0FFF
  else if deviceId = wlanTxHiqDeviceId ∨ deviceId = wlanTxMiqDeviceId
      ∨ deviceId = wlanTxLoqDeviceId then addr.toNat &&& 0x1FFF
  else if deviceId = wlanRx0ffDeviceId then addr.toNat &&& 0x0003
  else addr.toNat &&& 0x7FFF

/-- `_cvrt2ftaddr`. -/
def cvrt2ftaddr (addr : UInt32) : Nat := (getDeviceid addr <<< 13) ||| offsetOf addr

/-- The accesses that go byte by byte. -/
def byteWise (h : Host) (addr : UInt32) : Bool :=
  (getDeviceid addr = wlanIoregDeviceId ∧ offsetOf addr < 0x100) ∨ h.bMacPwrCtrlOn = false
    ∨ h.bFwCurrentInPSMode = true

/-- `shift`. -/
def shiftOf (addr : UInt32) : Nat := cvrt2ftaddr addr % 4

/-- `ftaddr &= ~(u16)0x3`. -/
def alignedOf (addr : UInt32) : Nat := cvrt2ftaddr addr - shiftOf addr

/-- `sdio_read32`. -/
def sdioRead32 (h : Host) (w : World) (addr : UInt32) : UInt32 × World :=
  let ftaddr := cvrt2ftaddr addr
  if byteWise h addr then
    let r := sdCmd52Read h w ftaddr 4 .caller
    (le32 (overwrite (fun _ => 0) 0 r.bytes) 0, r.world)
  else
    let shift := shiftOf addr
    if shift = 0 then sdRead32 h w ftaddr
    else if h.mallocOk 8 then
      let r := sdRead h (w.rtwMalloc 8) (alignedOf addr) 8 .bounce
      -- the buffer is not freed here
      if r.err ≠ 0 then (sdioErrVal32, r.world)
      else
        (le32 (overwrite h.junk 0 r.bytes) shift,
          ((r.world.touch .bounce shift 4).touch .caller 0 4).rtwMfree 8)
    else (sdioErrVal32, w)

/-- What `sdio_readN` and the two that write leave: the error, the caller's buffer, the world. -/
structure Moved where
  err : Int
  pbuf : Mem
  world : World

/-- `n = cnt + shift`, of 32 bits. -/
def bounceLen (addr cnt : UInt32) : Nat := (cnt.toNat + shiftOf addr) % 2 ^ 32

/-- `sdio_readN`. -/
def sdioReadN (h : Host) (w : World) (addr cnt : UInt32) (pbuf : Mem) : Moved :=
  let ftaddr := cvrt2ftaddr addr
  if byteWise h addr then
    let r := sdCmd52Read h w ftaddr cnt.toNat .caller
    ⟨r.err, overwrite pbuf 0 r.bytes, r.world⟩
  else
    let shift := shiftOf addr
    if shift = 0 then
      let r := sdRead h w ftaddr cnt.toNat .caller
      ⟨r.err, overwrite pbuf 0 r.bytes, r.world⟩
    else
      let n := bounceLen addr cnt
      if h.mallocOk n then
        let r := sdRead h (w.rtwMalloc n) (alignedOf addr) n .bounce
        if r.err = 0 then
          ⟨r.err, overwrite pbuf 0 (readBytes (overwrite h.junk 0 r.bytes) shift cnt.toNat),
            ((r.world.touch .bounce shift cnt.toNat).touch .caller 0 cnt.toNat).rtwMfree n⟩
        else ⟨r.err, pbuf, r.world.rtwMfree n⟩
      else ⟨-1, pbuf, w⟩

/-- `sdio_write32`. -/
def sdioWrite32 (h : Host) (w : World) (addr val : UInt32) : Int × World :=
  let ftaddr := cvrt2ftaddr addr
  if byteWise h addr then sdCmd52Write h w ftaddr (le32Bytes val) .caller
  else if shiftOf addr = 0 then sdWrite32 h w ftaddr val 0
  else sdCmd52Write h w ftaddr (le32Bytes val) .caller

/-- `sdio_writeN`. -/
def sdioWriteN (h : Host) (w : World) (addr cnt : UInt32) (pbuf : Mem) : Int × World :=
  let ftaddr := cvrt2ftaddr addr
  let data := readBytes pbuf 0 cnt.toNat
  if byteWise h addr then sdCmd52Write h w ftaddr data .caller
  else
    let shift := shiftOf addr
    if shift = 0 then sdWrite h w ftaddr data .caller
    else
      let n := bounceLen addr cnt
      if h.mallocOk n then
        let r := sdRead h (w.rtwMalloc n) (alignedOf addr) 4 .bounce
        if r.err ≠ 0 then (r.err, r.world.rtwMfree n)
        else
          let w := (r.world.touch .caller 0 cnt.toNat).touch .bounce shift cnt.toNat
          let tmp := overwrite (overwrite h.junk 0 r.bytes) shift data
          let (err, w) := sdWrite h w (alignedOf addr) (readBytes tmp 0 n) .bounce
          (err, w.rtwMfree n)
      else (-1, w)

/-! ## 5. What an access is for -/

/-- An access by the driver. -/
inductive Call
  | read32 (addr : UInt32)
  | readN (addr cnt : UInt32) (pbuf : Mem)
  | write32 (addr val : UInt32)
  | writeN (addr cnt : UInt32) (pbuf : Mem)

/-- What an access leaves: the value of `sdio_read32`, the error of the others, the caller's
buffer, and the world. -/
structure Outcome where
  value : UInt32
  err : Int
  pbuf : Mem
  world : World

/-- A card as an access finds it. -/
def Card.start (c : Card) : World := ⟨c, [], [], []⟩

namespace Call

def addr : Call → UInt32
  | read32 addr | readN addr _ _ | write32 addr _ | writeN addr _ _ => addr

/-- The bytes asked for. -/
def cnt : Call → Nat
  | read32 _ | write32 _ _ => 4
  | readN _ cnt _ | writeN _ cnt _ => cnt.toNat

def run (h : Host) (c : Card) : Call → Outcome
  | read32 addr =>
    let (val, w) := sdioRead32 h c.start addr
    ⟨val, 0, fun _ => 0, w⟩
  | readN addr cnt pbuf =>
    let r := sdioReadN h c.start addr cnt pbuf
    ⟨0, r.err, r.pbuf, r.world⟩
  | write32 addr val =>
    let (err, w) := sdioWrite32 h c.start addr val
    ⟨0, err, fun _ => 0, w⟩
  | writeN addr cnt pbuf =>
    let (err, w) := sdioWriteN h c.start addr cnt pbuf
    ⟨0, err, pbuf, w⟩

end Call

/-- The card is there, every command succeeds, and there is memory for a bounce buffer. -/
structure Reliable (h : Host) (c : Card) : Prop where
  there : c.surpriseRemoved = false
  commands : ∀ k, h.fail k = 0
  memory : ∀ n, h.mallocOk n

/-- The host with the MAC off, where every access goes byte by byte. -/
def Host.cmd52 (h : Host) : Host := { h with bMacPwrCtrlOn := false }

/-- A touched piece lies in the caller's buffer, or in a bounce buffer that was allocated. -/
def Access.Inside (cnt : Nat) (allocs : List Nat) (a : Access) : Prop :=
  match a.buf with
  | .caller => a.start + a.len ≤ cnt
  | .bounce => ∃ n ∈ allocs, a.start + a.len ≤ n

/-- **What an access is for.**  Over a reliable card it gives what the byte-wise path gives and
leaves the bytes not asked for; and in any case it stays in its buffers and frees them. -/
structure Right (h : Host) (c : Card) (call : Call) : Prop where
  value : Reliable h c → (call.run h c).value = (call.run h.cmd52 c).value
  err : Reliable h c → (call.run h c).err = (call.run h.cmd52 c).err
  pbuf : Reliable h c → (call.run h c).pbuf = (call.run h.cmd52 c).pbuf
  dev : Reliable h c → (call.run h c).world.dev = (call.run h.cmd52 c).world.dev
  rest : Reliable h c → ∀ x, x < cvrt2ftaddr call.addr ∨ cvrt2ftaddr call.addr + call.cnt ≤ x →
    (call.run h c).world.dev x = c.dev x
  inside : ∀ a ∈ (call.run h c).world.log, a.Inside call.cnt (call.run h c).world.allocs
  freed : (call.run h c).world.frees = (call.run h c).world.allocs

/-! ## 6. What the transfers keep -/

/-- The allocations are as they were, and what has been touched since lies in a piece of one
buffer. -/
structure Kept (w w' : World) (buf : Buf) (limit : Nat) : Prop where
  allocs : w'.allocs = w.allocs
  frees : w'.frees = w.frees
  log : ∀ a ∈ w'.log, a ∈ w.log ∨ a.buf = buf ∧ a.start + a.len ≤ limit
  grows : ∀ a ∈ w.log, a ∈ w'.log

section Transfers

variable {h : Host} {w w' w'' : World} {buf : Buf} {limit addr cnt i n : Nat} {bytes : List UInt8}

theorem Kept.refl (w : World) : Kept w w buf limit :=
  ⟨rfl, rfl, fun _ ha => .inl ha, fun _ ha => ha⟩

theorem Kept.trans (h₁ : Kept w w' buf limit) (h₂ : Kept w' w'' buf limit) :
    Kept w w'' buf limit := by
  refine ⟨h₂.allocs.trans h₁.allocs, h₂.frees.trans h₁.frees, fun a ha => ?_,
    fun a ha => h₂.grows a (h₁.grows a ha)⟩
  rcases h₂.log a ha with ha | ha
  · exact h₁.log a ha
  · exact .inr ha

/-- Only the card differs. -/
theorem Kept.card (h : Kept w w' buf limit) (c : Card) : Kept w { w' with toCard := c } buf limit :=
  ⟨h.allocs, h.frees, h.log, h.grows⟩

theorem Kept.touch {start len : Nat} (hle : start + len ≤ limit) :
    Kept w (w.touch buf start len) buf limit := by
  refine ⟨rfl, rfl, fun a ha => ?_, fun a ha => List.mem_append_left _ ha⟩
  rcases List.mem_append.mp ha with ha | ha
  · exact .inl ha
  · obtain rfl := List.mem_singleton.mp ha
    exact .inr ⟨rfl, hle⟩

/-- A byte that is read. -/
theorem readbLoop_succ (hok : h.fail w.cmds = 0) : readbLoop h buf (n + 1) addr i w =
    let r := readbLoop h buf n (addr + 1) (i + 1) { w.touch buf i 1 with cmds := w.cmds + 1 }
    { r with bytes := w.dev addr :: r.bytes } := by
  simp [readbLoop, sdioReadb, World.touch, hok]

/-- A byte that cannot be read. -/
theorem readbLoop_fail (hfail : h.fail w.cmds ≠ 0) : readbLoop h buf (n + 1) addr i w =
    ⟨h.fail w.cmds, [0xFF], { w.touch buf i 1 with cmds := w.cmds + 1 }⟩ := by
  simp [readbLoop, sdioReadb, World.touch, hfail]

theorem readbLoop_kept (hle : i + n ≤ limit) :
    Kept w (readbLoop h buf n addr i w).world buf limit := by
  induction n generalizing addr i w with
  | zero => exact .refl w
  | succ n ih =>
    have htouch : Kept w (w.touch buf i 1) buf limit := Kept.touch (by omega)
    have hstep : Kept w { w.touch buf i 1 with cmds := w.cmds + 1 } buf limit := htouch.card _
    by_cases hok : h.fail w.cmds = 0
    · rw [readbLoop_succ hok]
      exact hstep.trans (ih (by omega))
    · rw [readbLoop_fail hok]
      exact hstep

theorem writebLoop_kept (hle : i + bytes.length ≤ limit) :
    Kept w (writebLoop h buf bytes addr i w).2 buf limit := by
  induction bytes generalizing addr i w with
  | nil => exact .refl w
  | cons v bytes ih =>
    rw [List.length_cons] at hle
    have htouch : Kept w (w.touch buf i 1) buf limit := Kept.touch (by omega)
    have hstep : Kept w (sdioWriteb h (w.touch buf i 1) v addr).2 buf limit := htouch.card _
    simp only [writebLoop]
    split
    · exact hstep.trans (ih (by omega))
    · exact hstep

theorem sdCmd52Read_kept : Kept w (sdCmd52Read h w addr cnt buf).world buf cnt := by
  unfold sdCmd52Read
  split
  · exact .refl w
  · exact readbLoop_kept (by omega)

theorem sdCmd52Write_kept : Kept w (sdCmd52Write h w addr bytes buf).2 buf bytes.length := by
  unfold sdCmd52Write
  split
  · exact .refl w
  · exact writebLoop_kept (by omega)

theorem sdRead_kept : Kept w (sdRead h w addr cnt buf).world buf cnt := by
  unfold sdRead
  split
  · exact .refl w
  · split
    · exact readbLoop_kept (by omega)
    · have htouch : Kept w (w.touch buf 0 cnt) buf cnt := Kept.touch (by omega)
      unfold sdioMemcpyFromio
      split <;> exact htouch.card _

theorem sdWrite_kept : Kept w (sdWrite h w addr bytes buf).2 buf bytes.length := by
  unfold sdWrite
  split
  · exact .refl w
  · split
    · exact writebLoop_kept (by omega)
    · have htouch : Kept w (w.touch buf 0 bytes.length) buf bytes.length := Kept.touch (by omega)
      unfold sdioMemcpyToio
      split
      · exact htouch
      · exact htouch.card _

theorem sdRead32_kept : Kept w (sdRead32 h w addr).2 buf limit := by
  unfold sdRead32 sdioMemcpyFromio
  split
  · exact .refl w
  · split
    · exact .refl w
    · exact (Kept.refl w).card _

theorem sdioMemcpyToio_kept : Kept w (sdioMemcpyToio h w addr bytes).2 buf limit := by
  unfold sdioMemcpyToio
  split
  · exact .refl w
  · exact (Kept.refl w).card _

theorem sdWrite32Again_kept {v : UInt32} {err : Int} :
    Kept w (sdWrite32Again h addr v n err w).2 buf limit := by
  induction n generalizing w err with
  | zero => exact .refl w
  | succ n ih =>
    have hstep : Kept w (sdioMemcpyToio h w addr (le32Bytes v)).2 buf limit := sdioMemcpyToio_kept
    simp only [sdWrite32Again]
    split
    · exact hstep.card _
    · split
      · exact hstep.card _
      · exact (hstep.card _).trans ih

theorem sdWrite32_kept {v : UInt32} {err : Int} :
    Kept w (sdWrite32 h w addr v err).2 buf limit := by
  have hstep : Kept w (sdioMemcpyToio h w addr (le32Bytes v)).2 buf limit := sdioMemcpyToio_kept
  simp only [sdWrite32]
  split
  · exact .refl w
  · split
    · exact hstep
    · exact hstep.trans sdWrite32Again_kept

end Transfers

/-! ## 7. Transfers that succeed -/

/-- A transfer of `n` bytes as CMD53 does it succeeds: byte by byte for one or two. -/
def Transfers (h : Host) (c : Card) (n : Nat) : Prop :=
  c.surpriseRemoved = false ∧
    if n = 1 ∨ n = 2 then ∀ k < n, h.fail (c.cmds + k) = 0 else n = 0 ∨ h.fail c.cmds = 0

section Reliable

variable {h : Host} {w : World} {buf : Buf} {addr cnt i n : Nat} {bytes : List UInt8}

theorem readbLoop_err_iff : (readbLoop h buf n addr i w).err = 0 ↔
    ∀ k < n, h.fail (w.cmds + k) = 0 := by
  induction n generalizing addr i w with
  | zero => exact iff_of_true rfl nofun
  | succ n ih =>
    by_cases hok : h.fail w.cmds = 0
    · rw [readbLoop_succ hok]
      refine ih.trans ?_
      constructor
      · intro hrest k hk
        cases k with
        | zero => exact hok
        | succ k =>
          have := hrest k (by omega)
          rwa [Nat.add_assoc, Nat.add_comm 1 k] at this
      · intro hall k hk
        have := hall (k + 1) (by omega)
        rwa [Nat.add_assoc, Nat.add_comm 1 k]
    · rw [readbLoop_fail hok]
      exact iff_of_false hok fun hall => hok (hall 0 (by omega))

theorem sdRead_err_iff : (sdRead h w addr n buf).err = 0 ↔ Transfers h w.toCard n := by
  unfold sdRead Transfers
  cases hgone : w.surpriseRemoved with
  | true => simp [eperm]
  | false =>
    simp only [Bool.false_eq_true, if_false, true_and]
    split
    · exact readbLoop_err_iff
    · unfold sdioMemcpyFromio
      split
      · rename_i hzero
        exact iff_of_true rfl (.inl hzero)
      · rename_i hn
        simp [World.touch, hn]

/-- What was read into a buffer. -/
theorem overwrite_readBytes {m d : Mem} {a k : Nat} (hk : k < n) :
    overwrite m 0 (readBytes d a n) k = d (a + k) := by
  unfold overwrite
  rw [if_pos ⟨Nat.zero_le k, by rw [length_readBytes]; omega⟩, Nat.sub_zero, getD_readBytes d hk]

variable (hok : ∀ k, h.fail k = 0)

include hok

theorem readbLoop_ok : (readbLoop h buf n addr i w).err = 0 ∧
    (readbLoop h buf n addr i w).bytes = readBytes w.dev addr n ∧
    (readbLoop h buf n addr i w).world.dev = w.dev ∧
    (readbLoop h buf n addr i w).world.surpriseRemoved = w.surpriseRemoved := by
  induction n generalizing addr i w with
  | zero => exact ⟨rfl, rfl, rfl, rfl⟩
  | succ n ih =>
    obtain ⟨herr, hbytes, hrest⟩ := @ih { w.touch buf i 1 with cmds := w.cmds + 1 }
      (addr + 1) (i + 1)
    rw [readbLoop_succ (hok _)]
    exact ⟨herr, congrArg (w.dev addr :: ·) hbytes, hrest⟩

theorem writebLoop_ok : (writebLoop h buf bytes addr i w).1 = 0 ∧
    (writebLoop h buf bytes addr i w).2.dev = overwrite w.dev addr bytes := by
  induction bytes generalizing addr i w with
  | nil => exact ⟨rfl, (overwrite_nil _ _).symm⟩
  | cons v bytes ih =>
    simp only [writebLoop, sdioWriteb, store, hok, if_true]
    obtain ⟨herr, hdev⟩ := @ih (store h (w.touch buf i 1) addr [v]).2
      (addr + 1) (i + 1)
    simp only [store, hok, if_true] at herr hdev
    refine ⟨herr, ?_⟩
    rw [hdev]
    exact overwrite_cons w.dev addr v bytes

variable (hthere : w.surpriseRemoved = false)

include hthere

theorem sdCmd52Read_ok : (sdCmd52Read h w addr cnt buf).err = 0 ∧
    (sdCmd52Read h w addr cnt buf).bytes = readBytes w.dev addr cnt ∧
    (sdCmd52Read h w addr cnt buf).world.dev = w.dev := by
  simp only [sdCmd52Read, hthere, Bool.false_eq_true, if_false]
  obtain ⟨herr, hbytes, hdev, -⟩ := @readbLoop_ok h w buf addr 0 cnt hok
  exact ⟨herr, hbytes, hdev⟩

theorem sdCmd52Write_ok : (sdCmd52Write h w addr bytes buf).1 = 0 ∧
    (sdCmd52Write h w addr bytes buf).2.dev = overwrite w.dev addr bytes := by
  simp only [sdCmd52Write, hthere, Bool.false_eq_true, if_false]
  exact writebLoop_ok hok

theorem sdRead_ok : (sdRead h w addr cnt buf).err = 0 ∧
    (sdRead h w addr cnt buf).bytes = readBytes w.dev addr cnt ∧
    (sdRead h w addr cnt buf).world.dev = w.dev ∧
    (sdRead h w addr cnt buf).world.surpriseRemoved = false := by
  have hgone : ¬ Gone 0 := by decide
  simp only [sdRead, hthere, Bool.false_eq_true, if_false]
  split
  · obtain ⟨herr, hbytes, hdev, hkept⟩ := @readbLoop_ok h w buf addr 0 cnt hok
    exact ⟨herr, hbytes, hdev, hkept.trans hthere⟩
  · by_cases hzero : cnt = 0
    · subst hzero
      simp [sdioMemcpyFromio, World.touch, readBytes, hgone]
    · simp [sdioMemcpyFromio, World.touch, hzero, hok, hgone]

theorem sdWrite_ok : (sdWrite h w addr bytes buf).1 = 0 ∧
    (sdWrite h w addr bytes buf).2.dev = overwrite w.dev addr bytes := by
  simp only [sdWrite, hthere, Bool.false_eq_true, if_false]
  split
  · exact writebLoop_ok hok
  · by_cases hnil : bytes = []
    · simp [sdioMemcpyToio, hnil, overwrite_nil, World.touch]
    · simp [sdioMemcpyToio, hnil, store, hok, World.touch]

theorem sdRead32_ok : (sdRead32 h w addr).1
      = le32 (overwrite (fun _ => 0) 0 (readBytes w.dev addr 4)) 0 ∧
    (sdRead32 h w addr).2.dev = w.dev := by
  simp [sdRead32, sdioMemcpyFromio, hthere, hok]

theorem sdWrite32_ok {v : UInt32} : (sdWrite32 h w addr v 0).1 = 0 ∧
    (sdWrite32 h w addr v 0).2.dev = overwrite w.dev addr (le32Bytes v) := by
  simp [sdWrite32, sdioMemcpyToio, store, le32Bytes, hthere, hok]

end Reliable

/-! ## 8. The four accesses -/

/-- An access goes through the bounce buffer. -/
def Bounced (h : Host) (addr : UInt32) : Prop := byteWise h addr = false ∧ shiftOf addr ≠ 0

/-- **An access that is right.**  `sdio_read32` through the bounce buffer does not fail; the bounce
buffer of `sdio_readN` is not so long that its length wraps, and that of `sdio_writeN` has the four
bytes that are read into it. -/
def Call.Fits (h : Host) (c : Card) : Call → Prop
  | .read32 addr => Bounced h addr → h.mallocOk 8 → Transfers h c 8
  | .readN addr cnt _ => Bounced h addr → h.mallocOk (bounceLen addr cnt) →
      Transfers h c (bounceLen addr cnt) → cnt.toNat + shiftOf addr < 2 ^ 32
  | .write32 _ _ => True
  | .writeN addr cnt _ => Bounced h addr → h.mallocOk (bounceLen addr cnt) →
      c.surpriseRemoved = false → 4 ≤ bounceLen addr cnt

section Accesses

variable {h : Host} {c : Card} {addr cnt val : UInt32} {pbuf : Mem}

theorem byteWise_cmd52 (h : Host) (addr : UInt32) : byteWise h.cmd52 addr = true := by
  simp [byteWise, Host.cmd52]

theorem shiftOf_lt (addr : UInt32) : shiftOf addr < 4 := Nat.mod_lt _ (by decide)

theorem alignedOf_add (addr : UInt32) : alignedOf addr + shiftOf addr = cvrt2ftaddr addr :=
  Nat.sub_add_cancel (Nat.mod_le _ _)

theorem Reliable.cmd52 (hr : Reliable h c) : Reliable h.cmd52 c :=
  ⟨hr.there, hr.commands, hr.memory⟩

/-- With the MAC off nothing goes through a bounce buffer. -/
theorem not_bounced_cmd52 : ¬ Bounced h.cmd52 addr := fun hb =>
  absurd (byteWise_cmd52 h addr) (by simp [hb.1])

/-- What has been touched in the caller's buffer, and nothing allocated. -/
theorem Kept.inside {w : World} {limit : Nat} (hk : Kept c.start w .caller limit) :
    (∀ a ∈ w.log, a.Inside limit w.allocs) ∧ w.frees = w.allocs := by
  refine ⟨fun a ha => ?_, hk.frees.trans hk.allocs.symm⟩
  rcases hk.log a ha with ha | ⟨hbuf, hle⟩
  · cases ha
  · simp only [Access.Inside, hbuf, hle]

/-- What has been touched in a bounce buffer. -/
theorem Kept.inBounce {w : World} {limit n cnt : Nat} (hk : Kept (c.start.rtwMalloc n) w .bounce limit)
    (hle : limit ≤ n) {a : Access} (ha : a ∈ w.log) : a.Inside cnt [n] := by
  rcases hk.log a ha with ha | ⟨hbuf, hin⟩
  · cases ha
  · simp only [Access.Inside, hbuf, List.mem_singleton, exists_eq_left]
    omega

/-- Four bytes of what was read into a buffer. -/
theorem le32_overwrite {m d : Mem} {a n p : Nat} (hp : p + 4 ≤ n) :
    le32 (overwrite m 0 (readBytes d a n)) p = le32 d (a + p) := by
  simp only [le32, le16, Nat.add_assoc]
  rw [overwrite_readBytes (by omega), overwrite_readBytes (by omega), overwrite_readBytes (by omega),
    overwrite_readBytes (by omega)]

/-- **`sdio_read32`** over a reliable card gives the value at the address. -/
theorem sdioRead32_ok (hr : Reliable h c) :
    (sdioRead32 h c.start addr).1 = le32 c.dev (cvrt2ftaddr addr) ∧
      (sdioRead32 h c.start addr).2.dev = c.dev := by
  have hlt := shiftOf_lt addr
  simp only [sdioRead32]
  split
  · obtain ⟨-, hbytes, hdev⟩ := @sdCmd52Read_ok h c.start .caller (cvrt2ftaddr addr) 4
      hr.commands hr.there
    exact ⟨by rw [hbytes, le32_overwrite (by omega)]; rfl, hdev⟩
  · split
    · obtain ⟨hval, hdev⟩ := @sdRead32_ok h c.start (cvrt2ftaddr addr) hr.commands hr.there
      exact ⟨by rw [hval, le32_overwrite (by omega)]; rfl, hdev⟩
    · obtain ⟨herr, hbytes, hdev, -⟩ := @sdRead_ok h (c.start.rtwMalloc 8) .bounce
        (alignedOf addr) 8 hr.commands hr.there
      rw [if_pos (hr.memory 8), if_neg (not_not.mpr herr)]
      refine ⟨?_, hdev⟩
      rw [hbytes, le32_overwrite (by omega), alignedOf_add]
      rfl

/-- **`sdio_readN`** over a reliable card gives the bytes at the address. -/
theorem sdioReadN_ok (hr : Reliable h c)
    (hfits : Bounced h addr → cnt.toNat + shiftOf addr < 2 ^ 32) :
    (sdioReadN h c.start addr cnt pbuf).err = 0 ∧
      (sdioReadN h c.start addr cnt pbuf).pbuf
        = overwrite pbuf 0 (readBytes c.dev (cvrt2ftaddr addr) cnt.toNat) ∧
      (sdioReadN h c.start addr cnt pbuf).world.dev = c.dev := by
  simp only [sdioReadN]
  split
  · obtain ⟨herr, hbytes, hdev⟩ := @sdCmd52Read_ok h c.start .caller (cvrt2ftaddr addr)
      cnt.toNat hr.commands hr.there
    exact ⟨herr, congrArg (overwrite pbuf 0) hbytes, hdev⟩
  · rename_i hcmd53
    split
    · obtain ⟨herr, hbytes, hdev, -⟩ := @sdRead_ok h c.start .caller (cvrt2ftaddr addr)
        cnt.toNat hr.commands hr.there
      exact ⟨herr, congrArg (overwrite pbuf 0) hbytes, hdev⟩
    · rename_i hshift
      have hlen : bounceLen addr cnt = cnt.toNat + shiftOf addr :=
        Nat.mod_eq_of_lt (hfits ⟨Bool.eq_false_iff.mpr hcmd53, hshift⟩)
      obtain ⟨herr, hbytes, hdev, -⟩ := @sdRead_ok h
        (c.start.rtwMalloc (bounceLen addr cnt)) .bounce (alignedOf addr) (bounceLen addr cnt)
        hr.commands hr.there
      rw [if_pos (hr.memory _), if_pos herr]
      refine ⟨herr, congrArg (overwrite pbuf 0) ?_, hdev⟩
      rw [hbytes]
      refine readBytes_shift (alignedOf addr) (fun x hx hxn => ?_) (alignedOf_add addr).symm
      exact overwrite_readBytes (by omega)

/-- **`sdio_write32`** over a reliable card stores the value at the address. -/
theorem sdioWrite32_ok (hr : Reliable h c) :
    (sdioWrite32 h c.start addr val).1 = 0 ∧
      (sdioWrite32 h c.start addr val).2.dev
        = overwrite c.dev (cvrt2ftaddr addr) (le32Bytes val) := by
  simp only [sdioWrite32]
  split
  · exact sdCmd52Write_ok hr.commands hr.there
  · split
    · exact sdWrite32_ok hr.commands hr.there
    · exact sdCmd52Write_ok hr.commands hr.there

/-- What is written back in front of the caller's bytes is what was read there. -/
theorem writeBack_eq {m d : Mem} {a s n : Nat} {data : List UInt8} (hs : s ≤ 4)
    (hn : n = data.length + s) :
    overwrite d a (readBytes (overwrite (overwrite m 0 (readBytes d a 4)) s data) 0 n)
      = overwrite d (a + s) data := by
  funext x
  by_cases hin : a ≤ x ∧ x < a + n
  · have hk : x - a < n := by omega
    have hlhs : overwrite d a (readBytes (overwrite (overwrite m 0 (readBytes d a 4)) s data) 0 n) x
        = overwrite (overwrite m 0 (readBytes d a 4)) s data (0 + (x - a)) := by
      unfold overwrite
      rw [if_pos ⟨hin.1, by rw [length_readBytes]; exact hin.2⟩, getD_readBytes _ hk]
    rw [hlhs, Nat.zero_add]
    by_cases hfront : x < a + s
    · rw [overwrite_of_lt (by omega), overwrite_of_lt hfront, overwrite_readBytes (by omega)]
      congr 1
      omega
    · unfold overwrite
      rw [if_pos (by omega), if_pos (by omega)]
      congr 1
      omega
  · rcases Nat.lt_or_ge x a with hlt | hge
    · rw [overwrite_of_lt hlt, overwrite_of_lt (by omega)]
    · rw [overwrite_of_le (by rw [length_readBytes]; omega), overwrite_of_le (by omega)]

/-- **`sdio_writeN`** over a reliable card stores the caller's bytes at the address. -/
theorem sdioWriteN_ok (hr : Reliable h c)
    (hfits : Bounced h addr → 4 ≤ bounceLen addr cnt) :
    (sdioWriteN h c.start addr cnt pbuf).1 = 0 ∧
      (sdioWriteN h c.start addr cnt pbuf).2.dev
        = overwrite c.dev (cvrt2ftaddr addr) (readBytes pbuf 0 cnt.toNat) := by
  have hlt := shiftOf_lt addr
  have hcnt := cnt.toNat_lt
  simp only [sdioWriteN]
  split
  · exact sdCmd52Write_ok hr.commands hr.there
  · rename_i hcmd53
    split
    · exact sdWrite_ok hr.commands hr.there
    · rename_i hshift
      have hfour := hfits ⟨Bool.eq_false_iff.mpr hcmd53, hshift⟩
      have hlen : bounceLen addr cnt = cnt.toNat + shiftOf addr := by
        unfold bounceLen at hfour ⊢
        omega
      obtain ⟨herr, hbytes, hdev, hthere⟩ := @sdRead_ok h
        (c.start.rtwMalloc (bounceLen addr cnt)) .bounce (alignedOf addr) 4 hr.commands hr.there
      rw [if_pos (hr.memory _), if_neg (not_not.mpr herr), hbytes]
      obtain ⟨herr', hdev'⟩ := @sdWrite_ok h
        (((sdRead h (c.start.rtwMalloc (bounceLen addr cnt)) (alignedOf addr) 4
          .bounce).world.touch .caller 0 cnt.toNat).touch .bounce (shiftOf addr) cnt.toNat)
        .bounce (alignedOf addr)
        (readBytes (overwrite (overwrite h.junk 0 (readBytes c.dev (alignedOf addr) 4))
          (shiftOf addr) (readBytes pbuf 0 cnt.toNat)) 0 (bounceLen addr cnt))
        hr.commands hthere
      refine ⟨herr', hdev'.trans ?_⟩
      simp only [World.touch, hdev]
      rw [← alignedOf_add addr]
      exact writeBack_eq (by omega) (by rw [length_readBytes]; exact hlen)

/-- The bytes touched lie in their buffers, and what was allocated is freed. -/
def Tidy (w : World) (cnt : Nat) : Prop :=
  (∀ a ∈ w.log, a.Inside cnt w.allocs) ∧ w.frees = w.allocs

/-- A copy between the bounce buffer of a read and the caller's buffer, and the buffer freed. -/
theorem tidy_copy {w : World} {n limit shift cnt : Nat}
    (hk : Kept (c.start.rtwMalloc n) w .bounce limit) (hlimit : limit ≤ n) (hle : shift + cnt ≤ n) :
    Tidy (((w.touch .bounce shift cnt).touch .caller 0 cnt).rtwMfree n) cnt := by
  have hallocs : w.allocs = [n] := hk.allocs
  have hfrees : w.frees = [] := hk.frees
  refine ⟨fun a ha => ?_, ?_⟩
  · simp only [World.rtwMfree, World.touch, List.mem_append, List.mem_singleton] at ha ⊢
    rw [hallocs]
    rcases ha with (ha | rfl) | rfl
    · exact hk.inBounce hlimit ha
    · exact ⟨n, List.mem_singleton_self n, hle⟩
    · exact Nat.le_of_eq (Nat.zero_add cnt)
  · simp [World.rtwMfree, World.touch, hallocs, hfrees]

/-- A read into the bounce buffer that is freed at once. -/
theorem tidy_free {w : World} {n limit cnt : Nat}
    (hk : Kept (c.start.rtwMalloc n) w .bounce limit) (hlimit : limit ≤ n) :
    Tidy (w.rtwMfree n) cnt := by
  have hallocs : w.allocs = [n] := hk.allocs
  have hfrees : w.frees = [] := hk.frees
  refine ⟨fun a ha => ?_, ?_⟩
  · simp only [World.rtwMfree, hallocs]
    exact hk.inBounce hlimit ha
  · simp [World.rtwMfree, hallocs, hfrees]

theorem sdioRead32_tidy_iff : Tidy (sdioRead32 h c.start addr).2 4 ↔
    Call.Fits h c (.read32 addr) := by
  have hlt := shiftOf_lt addr
  simp only [sdioRead32, Call.Fits]
  by_cases hbyte : byteWise h addr
  · rw [if_pos hbyte]
    exact iff_of_true (Kept.inside sdCmd52Read_kept) fun hb => absurd hbyte (by simp [hb.1])
  · rw [if_neg hbyte]
    by_cases hshift : shiftOf addr = 0
    · rw [if_pos hshift]
      exact iff_of_true (Kept.inside sdRead32_kept) fun hb => absurd hshift hb.2
    · rw [if_neg hshift]
      by_cases hmem : h.mallocOk 8
      · have hk : Kept (c.start.rtwMalloc 8)
            (sdRead h (c.start.rtwMalloc 8) (alignedOf addr) 8 .bounce).world .bounce 8 := sdRead_kept
        have herr := @sdRead_err_iff h (c.start.rtwMalloc 8) .bounce (alignedOf addr) 8
        rw [if_pos hmem]
        by_cases hok : Transfers h c 8
        · rw [if_neg (not_not.mpr (herr.mpr hok))]
          exact iff_of_true (tidy_copy hk (Nat.le_refl 8) (by omega)) fun _ _ => hok
        · rw [if_pos fun hzero => hok (herr.mp hzero)]
          refine iff_of_false (fun htidy => ?_) fun hfits =>
            hok (hfits ⟨Bool.eq_false_iff.mpr hbyte, hshift⟩ hmem)
          have hfrees := htidy.2
          simp only at hfrees
          rw [hk.allocs, hk.frees] at hfrees
          cases hfrees
      · rw [if_neg hmem]
        exact iff_of_true (@Kept.inside c _ 4 (.refl _)) fun _ hm => absurd hm hmem

theorem sdioReadN_tidy_iff : Tidy (sdioReadN h c.start addr cnt pbuf).world cnt.toNat ↔
    Call.Fits h c (.readN addr cnt pbuf) := by
  simp only [sdioReadN, Call.Fits]
  by_cases hbyte : byteWise h addr
  · rw [if_pos hbyte]
    exact iff_of_true (Kept.inside sdCmd52Read_kept) fun hb => absurd hbyte (by simp [hb.1])
  · rw [if_neg hbyte]
    by_cases hshift : shiftOf addr = 0
    · rw [if_pos hshift]
      exact iff_of_true (Kept.inside sdRead_kept) fun hb => absurd hshift hb.2
    · rw [if_neg hshift]
      by_cases hmem : h.mallocOk (bounceLen addr cnt)
      · have hk : Kept (c.start.rtwMalloc (bounceLen addr cnt))
            (sdRead h (c.start.rtwMalloc (bounceLen addr cnt)) (alignedOf addr) (bounceLen addr cnt)
              .bounce).world .bounce (bounceLen addr cnt) := sdRead_kept
        have herr := @sdRead_err_iff h (c.start.rtwMalloc (bounceLen addr cnt)) .bounce
          (alignedOf addr) (bounceLen addr cnt)
        rw [if_pos hmem]
        by_cases hok : Transfers h c (bounceLen addr cnt)
        · rw [if_pos (herr.mpr hok)]
          constructor
          · intro htidy _ _ _
            have hin := htidy.1 ⟨.bounce, shiftOf addr, cnt.toNat⟩ (by
              simp [World.rtwMfree, World.touch])
            obtain ⟨n, hn, hle⟩ := hin
            simp only [World.rtwMfree, World.touch] at hn
            rw [hk.allocs] at hn
            obtain rfl := List.mem_singleton.mp hn
            have hmod : bounceLen addr cnt < 2 ^ 32 := Nat.mod_lt _ (by decide)
            simp only at hle
            omega
          · intro hfits
            have hlen : bounceLen addr cnt = cnt.toNat + shiftOf addr :=
              Nat.mod_eq_of_lt (hfits ⟨Bool.eq_false_iff.mpr hbyte, hshift⟩ hmem hok)
            exact tidy_copy hk (Nat.le_refl _) (by omega)
        · rw [if_neg fun hzero => hok (herr.mp hzero)]
          exact iff_of_true (tidy_free hk (Nat.le_refl _)) fun _ _ ht => absurd ht hok
      · rw [if_neg hmem]
        exact iff_of_true (@Kept.inside c _ cnt.toNat (.refl _)) fun _ hm => absurd hm hmem

theorem length_le32Bytes (v : UInt32) : (le32Bytes v).length = 4 := rfl

theorem sdioWrite32_tidy : Tidy (sdioWrite32 h c.start addr val).2 4 := by
  simp only [sdioWrite32]
  split
  · exact Kept.inside sdCmd52Write_kept
  · split
    · exact Kept.inside sdWrite32_kept
    · exact Kept.inside sdCmd52Write_kept

/-- CMD53 is given the whole of its buffer. -/
theorem sdRead_touches {w : World} {buf : Buf} {a n : Nat} (hthere : w.surpriseRemoved = false)
    (hn : 2 < n) : (⟨buf, 0, n⟩ : Access) ∈ (sdRead h w a n buf).world.log := by
  have htouch : (⟨buf, 0, n⟩ : Access) ∈ (w.touch buf 0 n).log := by simp [World.touch]
  simp only [sdRead, hthere, Bool.false_eq_true, if_false]
  rw [if_neg (by omega)]
  unfold sdioMemcpyFromio
  split <;> exact htouch

/-- A read into the bounce buffer, the caller's bytes copied in, and the buffer written back. -/
theorem tidy_writeBack {w w' : World} {n limit shift cnt : Nat}
    (hk : Kept (c.start.rtwMalloc n) w .bounce limit) (hlimit : limit ≤ n) (hle : shift + cnt ≤ n)
    (hk' : Kept ((w.touch .caller 0 cnt).touch .bounce shift cnt) w' .bounce n) :
    Tidy (w'.rtwMfree n) cnt := by
  have hallocs : w'.allocs = [n] := hk'.allocs.trans hk.allocs
  have hfrees : w'.frees = [] := hk'.frees.trans hk.frees
  refine ⟨fun a ha => ?_, ?_⟩
  · simp only [World.rtwMfree, hallocs]
    rcases hk'.log a ha with ha | ⟨hbuf, hin⟩
    · simp only [World.touch, List.mem_append, List.mem_singleton] at ha
      rcases ha with (ha | rfl) | rfl
      · exact hk.inBounce hlimit ha
      · exact Nat.le_of_eq (Nat.zero_add cnt)
      · exact ⟨n, List.mem_singleton_self n, hle⟩
    · simp only [Access.Inside, hbuf, List.mem_singleton, exists_eq_left]
      exact hin
  · simp [World.rtwMfree, hallocs, hfrees]

/-- Four bytes in a bounce buffer that is shorter. -/
theorem not_tidy_of_short {w : World} {n cnt : Nat} (hallocs : w.allocs = [n]) (hn : n < 4)
    (hmem : (⟨.bounce, 0, 4⟩ : Access) ∈ w.log) : ¬ Tidy w cnt := by
  intro htidy
  obtain ⟨k, hk, hle⟩ := htidy.1 _ hmem
  rw [hallocs, List.mem_singleton] at hk
  simp only at hle
  omega

theorem sdioWriteN_tidy_iff : Tidy (sdioWriteN h c.start addr cnt pbuf).2 cnt.toNat ↔
    Call.Fits h c (.writeN addr cnt pbuf) := by
  have hdata : (readBytes pbuf 0 cnt.toNat).length = cnt.toNat := length_readBytes _ _ _
  simp only [sdioWriteN, Call.Fits]
  by_cases hbyte : byteWise h addr
  · rw [if_pos hbyte]
    refine iff_of_true ?_ fun hb => absurd hbyte (by simp [hb.1])
    exact Kept.inside (hdata ▸ sdCmd52Write_kept)
  · rw [if_neg hbyte]
    by_cases hshift : shiftOf addr = 0
    · rw [if_pos hshift]
      refine iff_of_true ?_ fun hb => absurd hshift hb.2
      exact Kept.inside (hdata ▸ sdWrite_kept)
    · rw [if_neg hshift]
      by_cases hmem : h.mallocOk (bounceLen addr cnt)
      · rw [if_pos hmem]
        generalize hr : sdRead h (c.start.rtwMalloc (bounceLen addr cnt)) (alignedOf addr) 4 .bounce
          = r
        have hk : Kept (c.start.rtwMalloc (bounceLen addr cnt)) r.world .bounce 4 :=
          hr ▸ sdRead_kept
        have hlt := shiftOf_lt addr
        have hcnt := cnt.toNat_lt
        have hn : bounceLen addr cnt = (cnt.toNat + shiftOf addr) % 2 ^ 32 := rfl
        -- what is written back from the world `w`
        have hback : ∀ {w : World} {tmp : Mem}, Kept w (sdWrite h w (alignedOf addr)
            (readBytes tmp 0 (bounceLen addr cnt)) .bounce).2 .bounce (bounceLen addr cnt) :=
          fun {w tmp} => by
            have hkept := @sdWrite_kept h w .bounce (alignedOf addr)
              (readBytes tmp 0 (bounceLen addr cnt))
            rwa [length_readBytes] at hkept
        by_cases hfour : 4 ≤ bounceLen addr cnt
        · refine iff_of_true ?_ fun _ _ _ => hfour
          by_cases herr : r.err ≠ 0
          · rw [if_pos herr]
            exact tidy_free hk hfour
          · rw [if_neg herr]
            exact tidy_writeBack hk hfour (by omega) hback
        · by_cases hthere : c.surpriseRemoved = false
          · refine iff_of_false ?_ fun hfits =>
              hfour (hfits ⟨Bool.eq_false_iff.mpr hbyte, hshift⟩ hmem hthere)
            have htouched : (⟨.bounce, 0, 4⟩ : Access) ∈ r.world.log :=
              hr ▸ sdRead_touches hthere (by omega)
            by_cases herr : r.err ≠ 0
            · rw [if_pos herr]
              exact not_tidy_of_short hk.allocs (Nat.lt_of_not_le hfour) htouched
            · rw [if_neg herr]
              refine not_tidy_of_short (hback.allocs.trans hk.allocs) (Nat.lt_of_not_le hfour)
                (hback.grows _ ?_)
              simp only [World.touch, List.mem_append]
              exact .inl (.inl htouched)
          · -- a removed card is not read at all
            refine iff_of_true ?_ fun _ _ ht => absurd ht hthere
            have hremoved : c.surpriseRemoved = true := (Bool.not_eq_false _).mp hthere
            have hgone : r = ⟨-eperm, [], c.start.rtwMalloc (bounceLen addr cnt)⟩ :=
              hr.symm.trans (if_pos hremoved)
            rw [hgone, if_pos (by simp [eperm])]
            exact tidy_free (.refl _) (Nat.zero_le _)
      · rw [if_neg hmem]
        exact iff_of_true (@Kept.inside c _ cnt.toNat (.refl _)) fun _ hm => absurd hm hmem

end Accesses

/-! ## 9. When an access is right -/

/-- A right access over a reliable card has one outcome, on whatever path it goes. -/
theorem run_ok {h : Host} {c : Card} (hr : Reliable h c) : ∀ {call : Call}, call.Fits h c →
    (call.run h c).value = (call.run h.cmd52 c).value ∧
    (call.run h c).err = (call.run h.cmd52 c).err ∧
    (call.run h c).pbuf = (call.run h.cmd52 c).pbuf ∧
    (call.run h c).world.dev = (call.run h.cmd52 c).world.dev ∧
    ∀ x, x < cvrt2ftaddr call.addr ∨ cvrt2ftaddr call.addr + call.cnt ≤ x →
      (call.run h c).world.dev x = c.dev x
  | .read32 addr, _ => by
    obtain ⟨hval, hdev⟩ := @sdioRead32_ok h c addr hr
    obtain ⟨hval', hdev'⟩ := @sdioRead32_ok h.cmd52 c addr hr.cmd52
    exact ⟨hval.trans hval'.symm, rfl, rfl, hdev.trans hdev'.symm, fun x _ => congrFun hdev x⟩
  | .readN addr cnt pbuf, hfits => by
    obtain ⟨herr, hbuf, hdev⟩ := @sdioReadN_ok h c addr cnt pbuf hr fun hb =>
      hfits hb (hr.memory _) ⟨hr.there, by
        split
        · exact fun k _ => hr.commands _
        · exact .inr (hr.commands _)⟩
    obtain ⟨herr', hbuf', hdev'⟩ := @sdioReadN_ok h.cmd52 c addr cnt pbuf hr.cmd52
      fun hb => absurd hb not_bounced_cmd52
    exact ⟨rfl, herr.trans herr'.symm, hbuf.trans hbuf'.symm, hdev.trans hdev'.symm,
      fun x _ => congrFun hdev x⟩
  | .write32 addr val, _ => by
    obtain ⟨herr, hdev⟩ := @sdioWrite32_ok h c addr val hr
    obtain ⟨herr', hdev'⟩ := @sdioWrite32_ok h.cmd52 c addr val hr.cmd52
    refine ⟨rfl, herr.trans herr'.symm, rfl, hdev.trans hdev'.symm, fun x hx => ?_⟩
    refine (congrFun hdev x).trans ?_
    rcases hx with hx | hx
    · exact overwrite_of_lt hx
    · exact overwrite_of_le hx
  | .writeN addr cnt pbuf, hfits => by
    obtain ⟨herr, hdev⟩ := @sdioWriteN_ok h c addr cnt pbuf hr fun hb =>
      hfits hb (hr.memory _) hr.there
    obtain ⟨herr', hdev'⟩ := @sdioWriteN_ok h.cmd52 c addr cnt pbuf hr.cmd52
      fun hb => absurd hb not_bounced_cmd52
    refine ⟨rfl, herr.trans herr'.symm, rfl, hdev.trans hdev'.symm, fun x hx => ?_⟩
    refine (congrFun hdev x).trans ?_
    rcases hx with hx | hx
    · exact overwrite_of_lt hx
    · exact overwrite_of_le (by rw [length_readBytes]; exact hx)

/-- What is touched and freed. -/
theorem run_tidy_iff (h : Host) (c : Card) (call : Call) :
    Tidy (call.run h c).world call.cnt ↔ call.Fits h c := by
  cases call with
  | read32 addr => exact sdioRead32_tidy_iff
  | readN addr cnt pbuf => exact sdioReadN_tidy_iff
  | write32 addr val => exact iff_of_true sdioWrite32_tidy trivial
  | writeN addr cnt pbuf => exact sdioWriteN_tidy_iff

/-- **An access is right** exactly if it fits: a read of 32 bits through the bounce buffer does not
fail, the length of the bounce buffer does not wrap, and a bounce buffer that is written has four
bytes or more. -/
theorem sdio_access_iff (h : Host) (c : Card) (call : Call) : Right h c call ↔ call.Fits h c := by
  constructor
  · intro hright
    exact (run_tidy_iff h c call).mp ⟨hright.inside, hright.freed⟩
  · intro hfits
    obtain ⟨hinside, hfreed⟩ := (run_tidy_iff h c call).mpr hfits
    exact ⟨fun hr => (run_ok hr hfits).1, fun hr => (run_ok hr hfits).2.1,
      fun hr => (run_ok hr hfits).2.2.1, fun hr => (run_ok hr hfits).2.2.2.1,
      fun hr => (run_ok hr hfits).2.2.2.2, hinside, hfreed⟩

/-- A host with the MAC on, where every command succeeds. -/
def goodHost : Host where
  fail _ := 0
  part _ := 0
  junk _ := 0
  mallocOk _ := true
  bMacPwrCtrlOn := true
  bFwCurrentInPSMode := false

def zeroCard : Card := ⟨fun _ => 0, 0, false, 0⟩

/-- Not so for every access: one byte at register `0x101` is written through a bounce buffer of two
bytes, into which four are read. -/
theorem sdio_bounce_too_short : ¬ ∀ h c call, Right h c call := by
  intro hall
  have hright := hall goodHost zeroCard (.writeN 0x101 1 fun _ => 0xAA)
  have hfits := (run_tidy_iff _ _ _).mp ⟨hright.inside, hright.freed⟩
  exact absurd (hfits (by unfold Bounced; decide) rfl rfl) (by decide)

end Rtl8723bs.Sdio
