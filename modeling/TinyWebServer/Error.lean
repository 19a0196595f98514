import TinyWebServer.Library.Bytes

/-!
# Errors

The error type that every fallible operation of the server returns. A value with the code
`kSuccess` stands for the absence of an error.
-/

namespace TinyWebServer

inductive WebError where
  | kSuccess
  | kSocketError | kEpollError | kFcntlError | kIoError | kFileNotFound | kPermissionDenied
  | kParseError | kInvalidRequest | kUnsupportedMethod | kProtocolError | kRequestTimeout
  | kBufferFull | kConnectionLimit | kMemoryLimit | kQueueFull | kResourceExhausted
  | kAccessDenied | kInvalidPath | kRequestTooLarge
  | kInternalError | kStateError | kNullPointer | kInvalidArgument
  | kTimerError | kTimeout
  | kUnknownError
  deriving DecidableEq, Repr

structure Error where
  code : WebError
  message : Bytes
  deriving DecidableEq

namespace Error

def success : Error := ⟨.kSuccess, []⟩

def isSuccess (e : Error) : Prop := e.code = .kSuccess

instance (e : Error) : Decidable e.isSuccess := inferInstanceAs (Decidable (e.code = .kSuccess))

@[simp] lemma isSuccess_success : success.isSuccess := rfl

@[simp] lemma not_isSuccess_kProtocolError (message : Bytes) :
    ¬ (Error.mk .kProtocolError message).isSuccess := by
  simp [isSuccess]

end Error

end TinyWebServer
