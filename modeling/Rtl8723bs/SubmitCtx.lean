/-
# Submit contexts

A `submit_ctx` lies on the stack of the function that waits, or in a private structure.  Who
finishes the work stores a status and completes it; who waits takes one completion and reads
the status, or gives up when the time is over and none has come.
-/

namespace Rtl8723bs

/-- The states of a `submit_ctx` (`RTW_SCTX_SUBMITTED`, `RTW_SCTX_DONE_…`). -/
inductive SctxStatus where
  | submitted
  | doneSuccess
  | doneUnknown
  | doneTimeout
  | doneBufAlloc
  | doneBufFree
  | doneWritePortErr
  | doneTxDescNa
  | doneTxDeny
  | doneCcxPktFail
  | doneDrvStop
  | doneDevRemove
  | doneCmdError
  | doneCmdDrop
  | cstrWaitRpt2
deriving DecidableEq, Repr

/-- `struct submit_ctx`; `done` counts the completions not yet taken. -/
structure SubmitCtx where
  status : SctxStatus
  done : Nat
deriving DecidableEq, Repr

/-- `rtw_sctx_init`. -/
def rtwSctxInit : SubmitCtx := ⟨.submitted, 0⟩

namespace SubmitCtx

/-- `(*sctx)->status = status` of `rtw_sctx_done_err`. -/
def store (s : SubmitCtx) (status : SctxStatus) : SubmitCtx := { s with status := status }

/-- `complete(&(*sctx)->done)`. -/
def complete (s : SubmitCtx) : SubmitCtx := { s with done := s.done + 1 }

/-- `rtw_sctx_wait` takes a completion. -/
def take (s : SubmitCtx) : SubmitCtx := { s with done := s.done - 1 }

/-- What `rtw_sctx_wait` returns after it took a completion. -/
def woken (s : SubmitCtx) : Bool := s.status = .doneSuccess

@[simp] theorem store_status (s : SubmitCtx) (status : SctxStatus) :
    (s.store status).status = status := rfl

@[simp] theorem store_done (s : SubmitCtx) (status : SctxStatus) :
    (s.store status).done = s.done := rfl

@[simp] theorem complete_status (s : SubmitCtx) : s.complete.status = s.status := rfl

@[simp] theorem complete_done (s : SubmitCtx) : s.complete.done = s.done + 1 := rfl

@[simp] theorem take_status (s : SubmitCtx) : s.take.status = s.status := rfl

@[simp] theorem take_done (s : SubmitCtx) : s.take.done = s.done - 1 := rfl

end SubmitCtx

end Rtl8723bs
