/-
# The banks of the EFUSE

The EFUSE has a bank for the WiFi packets and two for those of Bluetooth, and the top of each is
protected.  `Hal_EfusePgPacketWrite` and `Hal_EfusePgPacketWrite_BT` find the end of the packets
of their banks, check the byte there, and program a header and the words of the mask from it on;
the words that went bad go into another packet.  What is programmed cannot be erased; bits may be
stuck, so every programming here has its own bits that stay set.
-/
import Rtl8723bs.Efuse.Write

namespace Rtl8723bs.Efuse.Banks

open Walk

/-! ## 1. The chip -/

/-- `EFUSE_WIFI` and `EFUSE_BT`. -/
inductive EfuseType where
  | wifi
  | bt
  deriving DecidableEq

/-- A byte programmed: where, what was there, and whether it is one that the call programs once
more because it did not read back. -/
structure Burn where
  bank : Nat
  addr : Nat
  old : UInt8
  retry : Bool

/-- The arrays of the banks, the bank selected, `EfuseUsedBytes` and `BTEfuseUsedBytes`; with the
bytes programmed so far, the last one first. -/
structure Dev where
  img : Nat → Raw
  bank : Nat
  usedBytes : Nat
  btUsedBytes : Nat
  log : List Burn

/-- The bits that stay set although they are programmed, at each programming of a byte. -/
abbrev Stuck := Nat → UInt8

/-- `efuse_OneByteRead`. -/
def efuseOneByteRead (d : Dev) (addr : Nat) : UInt8 := d.img d.bank addr

/-- `efuse_OneByteWrite`: the clear bits of the data are cleared, but for those that are stuck. -/
def efuseOneByteWrite (stuck : Stuck) (retry : Bool) (d : Dev) (addr : Nat) (data : UInt8) : Dev :=
  { d with
    img := Function.update d.img d.bank
      (Function.update (d.img d.bank) addr
        (efuseOneByteRead d addr &&& (data ||| stuck d.log.length)))
    log := ⟨d.bank, addr, efuseOneByteRead d addr, retry⟩ :: d.log }

/-! ## 2. The space -/

/-- `EFUSE_BT_REAL_BANK_CONTENT_LEN`. -/
def efuseBtRealBankContentLen : Nat := 512

/-- `EFUSE_BT_REAL_CONTENT_LEN`. -/
def efuseBtRealContentLen : Nat := 1536

/-- `EFUSE_PROTECT_BYTES_BANK`. -/
def efuseProtectBytesBank : Nat := 16

/-- `TYPE_AVAILABLE_EFUSE_BYTES_BANK` of `Hal_GetEfuseDefinition`. -/
def availableBytesBank : EfuseType → Nat
  | .wifi => availableEfuseBytes
  | .bt => efuseBtRealBankContentLen - efuseProtectBytesBank

/-- `TYPE_AVAILABLE_EFUSE_BYTES_TOTAL` of `Hal_GetEfuseDefinition`. -/
def availableBytesTotal : EfuseType → Nat
  | .wifi => availableEfuseBytes
  | .bt => efuseBtRealContentLen - efuseProtectBytesBank * 3

/-- The body of the loop of `hal_EfuseGetCurrentSize_BT` over the headers of a bank. -/
def btSizeTurn (img : Raw) (efuseAddr : Nat) : Turn Nat :=
  if efuseAddr < efuseRealContentLen then
    if img efuseAddr = 0xFF then .stop efuseAddr
    else if extHeader (img efuseAddr) then
      if allWordsDisabled (img (efuseAddr + 1)) then .go (efuseAddr + 1 + 1)
      else .go (efuseAddr + 1
        + (efuseCalculateWordCnts (img (efuseAddr + 1) &&& 0x0F) * 2 + 1))
    else .go (efuseAddr + (efuseCalculateWordCnts (img efuseAddr &&& 0x0F) * 2 + 1))
  else .stop efuseAddr

/-- The loop over the headers; the address moves on in every turn. -/
def btSizeLoop (img : Raw) (efuseAddr : Nat) : Nat :=
  runLoop (btSizeTurn img) (efuseRealContentLen + 1) efuseAddr

/-- The loop of `hal_EfuseGetCurrentSize_BT` over the banks, of which `n` are left: the bank and
the address at which it ends, and the chip. -/
def btBankLoop : Nat → Dev → Nat → Nat → Nat × Nat × Dev
  | 0, d, bank, efuseAddr => (bank, efuseAddr, d)
  | n + 1, d, bank, efuseAddr =>
    let d := { d with bank := bank }
    let efuseAddr := btSizeLoop (d.img bank) efuseAddr
    if efuseAddr < availableBytesBank .bt then (bank, efuseAddr, d)
    -- the next bank is read from its start
    else if n = 0 then (bank + 1, efuseAddr, d)
    else btBankLoop n d (bank + 1) 0

/-- `hal_EfuseGetCurrentSize_BT`. -/
def halEfuseGetCurrentSizeBT (d : Dev) : Nat × Dev :=
  let efuseAddr := d.btUsedBytes % efuseBtRealBankContentLen
  let startBank := 1 + d.btUsedBytes / efuseBtRealBankContentLen
  let r := btBankLoop (3 - startBank) d startBank efuseAddr
  let size := (r.1 - 1) * efuseBtRealBankContentLen + r.2.1
  (size, { r.2.2 with btUsedBytes := size })

/-- `Efuse_GetCurrentSize`; that of WiFi selects bank 0. -/
def efuseGetCurrentSize : EfuseType → Dev → Nat × Dev
  | .wifi, d =>
    let r := halEfuseGetCurrentSizeWiFi (d.img 0) d.usedBytes
    (r.1, { d with bank := 0, usedBytes := r.2 })
  | .bt, d => halEfuseGetCurrentSizeBT d

/-- `hal_EfusePgCheckAvailableAddr`. -/
def halEfusePgCheckAvailableAddr (typ : EfuseType) (d : Dev) : Bool × Dev :=
  let r := efuseGetCurrentSize typ d
  (r.1 < availableBytesTotal typ, r.2)

/-- `hal_EfusePartialWriteCheck`: the address to program at.  The length of a bank is the same
for both types, but the bound is that of all banks. -/
def halEfusePartialWriteCheck (typ : EfuseType) (d : Dev) : Option Nat :=
  let startAddr := (match typ with
    | .wifi => d.usedBytes
    | .bt => d.btUsedBytes) % efuseRealContentLen
  if startAddr ≥ availableBytesTotal typ then none
  else if efuseOneByteRead d startAddr ≠ 0xFF then none
  else some startAddr

/-! ## 3. The packet -/

/-- The loops that read a header byte back and program it again, with the repetitions left. -/
def repeatHeader (stuck : Stuck) (addr : Nat) (pgHeader : UInt8) : Nat → Dev → Option Nat × Dev
  | 0, d =>
    if efuseOneByteRead d addr = 0xFF ∨ pgHeader ≠ efuseOneByteRead d addr then (none, d)
    else (some 0, d)
  | n + 1, d =>
    if efuseOneByteRead d addr = 0xFF ∨ pgHeader ≠ efuseOneByteRead d addr then
      repeatHeader stuck addr pgHeader n (efuseOneByteWrite stuck true d addr pgHeader)
    else (some (n + 1), d)

/-- A header byte is programmed, and again until it reads back. -/
def writeHeaderByte (stuck : Stuck) (d : Dev) (addr : Nat) (pgHeader : UInt8) (n : Nat) :
    Option Nat × Dev :=
  repeatHeader stuck addr pgHeader n (efuseOneByteWrite stuck false d addr pgHeader)

/-- `hal_EfusePgPacketWrite1ByteHeader`: the address of the header, unless it fails.  Behind the
loop the header is as programmed, so `hal_EfuseFixHeaderProcess` is not called. -/
def halEfusePgPacketWrite1ByteHeader (stuck : Stuck) (d : Dev) (addr : Nat)
    (offset wordEn : UInt8) : Option Nat × Dev :=
  match writeHeaderByte stuck d addr (header1 offset wordEn) (efuseRepeatThreshold + 1) with
  | (none, d) => (none, d)
  | (some _, d) => (some addr, d)

/-- The loop of `hal_EfusePgPacketWrite2ByteHeader`, which goes on behind a header without
words; `n` are the repetitions left, for all bytes together. -/
def write2ByteHeaderLoop (stuck : Stuck) (typ : EfuseType) (offset wordEn : UInt8) :
    Nat → Nat → Dev → Nat → Option Nat × Dev
  | 0, _, d, _ => (none, d)
  | turns + 1, n, d, addr =>
    if addr < availableBytesBank typ then
      match writeHeaderByte stuck d addr (header2 offset) n with
      | (none, d) => (none, d)
      | (some n, d) =>
        match writeHeaderByte stuck d (addr + 1) (extHeader2 offset wordEn) n with
        | (none, d) => (none, d)
        | (some n, d) =>
          if allWordsDisabled (efuseOneByteRead d (addr + 1)) then
            match n with
            | 0 => (none, d)
            | n + 1 => write2ByteHeaderLoop stuck typ offset wordEn turns n d (addr + 2)
          else (some (addr + 1), d)
    else (some addr, d)

/-- `hal_EfusePgPacketWrite2ByteHeader`: the address of the second byte, unless it fails. -/
def halEfusePgPacketWrite2ByteHeader (stuck : Stuck) (typ : EfuseType) (d : Dev) (addr : Nat)
    (offset wordEn : UInt8) : Option Nat × Dev :=
  if addr ≥ availableBytesBank typ then (none, d)
  else
    write2ByteHeaderLoop stuck typ offset wordEn (efuseRepeatThreshold + 2)
      (efuseRepeatThreshold + 1) d addr

/-- `hal_EfusePgPacketWriteHeader`. -/
def halEfusePgPacketWriteHeader (stuck : Stuck) (typ : EfuseType) (d : Dev) (addr : Nat)
    (offset wordEn : UInt8) : Option Nat × Dev :=
  if offset.toNat ≥ efuseMaxSectionBase then
    halEfusePgPacketWrite2ByteHeader stuck typ d addr offset wordEn
  else halEfusePgPacketWrite1ByteHeader stuck d addr offset wordEn

/-- A word is programmed and read back: the address behind it, `badworden` and the chip. -/
def writeWord (stuck : Stuck) (wordEn : UInt8) (data : Tbl) (r : Nat × UInt8 × Dev) (i : Nat) :
    Nat × UInt8 × Dev :=
  if wordEnabled wordEn i then
    let d := efuseOneByteWrite stuck false
      (efuseOneByteWrite stuck false r.2.2 r.1 (data (2 * i))) (r.1 + 1) (data (2 * i + 1))
    (r.1 + 2,
      if data (2 * i) ≠ efuseOneByteRead d r.1 ∨ data (2 * i + 1) ≠ efuseOneByteRead d (r.1 + 1)
      then clearBit r.2.1 i
      else r.2.1,
      d)
  else r

/-- `Hal_EfuseWordEnableDataWrite`. -/
def halEfuseWordEnableDataWrite (stuck : Stuck) (d : Dev) (efuseAddr : Nat) (wordEn : UInt8)
    (data : Tbl) : UInt8 × Dev :=
  ((List.range efuseMaxWordUnit).foldl (writeWord stuck wordEn data) (efuseAddr, 0x0F, d)).2

/-- A packet to be written: the type of its banks, the mask, the data, and the chip. -/
structure Call where
  typ : EfuseType
  wordEn : UInt8
  pData : Tbl
  dev : Dev

/-- What becomes of a packet: written or not, or bad words that are another packet. -/
inductive Outcome where
  | done (ok : Bool) (dev : Dev)
  | again (call : Call)

/-- What comes before the header: the check of the space, and the address to program at. -/
def packetStart (c : Call) : Option Nat × Dev :=
  let r := halEfusePgCheckAvailableAddr c.typ c.dev
  if r.1 then (halEfusePartialWriteCheck c.typ r.2, r.2) else (none, r.2)

/-- The body of `Hal_EfusePgPacketWrite` and `Hal_EfusePgPacketWrite_BT`, up to the call of
`Efuse_PgPacketWrite` in `hal_EfusePgPacketWriteData`: that is the one for WiFi for both. -/
def packetTurn (stuck : Stuck) (offset : UInt8) (c : Call) : Outcome :=
  match packetStart c with
  | (none, d) => .done false d
  | (some startAddr, d) =>
    let data := efuseWordEnableDataRead c.wordEn c.pData blankTbl
    match halEfusePgPacketWriteHeader stuck c.typ d startAddr offset c.wordEn with
    | (none, d) => .done false d
    | (some addr, d) =>
      let r := halEfuseWordEnableDataWrite stuck d (addr + 1) c.wordEn data
      if r.1 = 0x0F then .done true r.2 else .again ⟨.wifi, r.1, data, r.2⟩

/-- `Hal_EfusePgPacketWrite` and `Hal_EfusePgPacketWrite_BT`, with the calls inside, at most
`depth` deep. -/
def halEfusePgPacketWrite (stuck : Stuck) (offset : UInt8) : Nat → Call → Option (Bool × Dev)
  | 0, _ => none
  | depth + 1, c =>
    match packetTurn stuck offset c with
    | .done ok d => some (ok, d)
    | .again c => halEfusePgPacketWrite stuck offset depth c

end Rtl8723bs.Efuse.Banks
