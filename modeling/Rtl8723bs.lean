import Rtl8723bs.Rx.Decache
import Rtl8723bs.Rx.BlockAckRun
import Rtl8723bs.Rx.ReorderRep
import Rtl8723bs.Rx.MgmtProtect
import Rtl8723bs.Rx.CcmpReceive
import Rtl8723bs.Rx.CryptBounds
import Rtl8723bs.Rx.SwRoundTrip
import Rtl8723bs.Rx.Amsdu
import Rtl8723bs.Rx.RecvTasklet
import Rtl8723bs.Rx.MicAgree
import Rtl8723bs.Security.KeyCamRun
import Rtl8723bs.Security.TkipMix
import Rtl8723bs.Tx.TxPn
import Rtl8723bs.Tx.FreePagesRun
import Rtl8723bs.Tx.PowerSaveRun
import Rtl8723bs.Tx.MgntWaitRun
import Rtl8723bs.Tx.AckWaitRun
import Rtl8723bs.Tx.XmitPathRun
import Rtl8723bs.Cmd.CmdQueueRun
import Rtl8723bs.Pwr.LpsLclkRun
import Rtl8723bs.Br.VlanTag
import Rtl8723bs.Sta.Pool
import Rtl8723bs.Sta.Macid
import Rtl8723bs.Sta.FreeStainfo
import Rtl8723bs.Ap.BssCapRun
import Rtl8723bs.Ap.Aid
import Rtl8723bs.Ap.Caps
import Rtl8723bs.Ap.Auth
import Rtl8723bs.Efuse.Agree
import Rtl8723bs.Efuse.MapWrite
import Rtl8723bs.P2p.NegoRun
import Rtl8723bs.P2p.MergeIes
import Rtl8723bs.Mlme.ScanTableRun
import Rtl8723bs.SecIe
import Rtl8723bs.IesRemove
import Rtl8723bs.AttrDelRun
import Rtl8723bs.OsDep.CbufRun
import Rtl8723bs.OsDep.MapRead
import Rtl8723bs.Br.Checksum
import Rtl8723bs.Ap.BeaconTim
import Rtl8723bs.Ap.BcnIe
import Rtl8723bs.Mlme.BeaconChange
import Rtl8723bs.Mlme.ScanEntry
import Rtl8723bs.Mlme.JoinRsp
import Rtl8723bs.Ap.BeaconData
import Rtl8723bs.Ap.Acl
import Rtl8723bs.P2p.ChList
import Rtl8723bs.OsDep.SdioOps
import Rtl8723bs.Efuse.File
import Rtl8723bs.Efuse.BanksRun
import Rtl8723bs.Tx.BipMgmt
import Rtl8723bs.Ap.StaRates
import Rtl8723bs.IeParsers
import Rtl8723bs.Security.Omac
import Rtl8723bs.Hal.PwrFlows
import Rtl8723bs.Hal.PhyTables
import Rtl8723bs.Hal.H2c
import Rtl8723bs.Hal.FwDownload
import Rtl8723bs.Mlme.ClntJoinRun
