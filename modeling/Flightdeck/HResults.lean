/-!
# Result codes

The `HRESULT`s of the compatibility layer.
-/

namespace Flightdeck

abbrev HResult := UInt32

/-- `FAILED` -/
def failed (hr : HResult) : Bool := 0x80000000 ≤ hr

def S_OK : HResult := 0
def E_NOTIMPL : HResult := 0x80004001
def E_ABORT : HResult := 0x80004004
/-- `HRESULT_FROM_WIN32(ERROR_INVALID_DATA)` -/
def INVALID_DATA : HResult := 0x8007000D
/-- `HRESULT_FROM_WIN32(ERROR_NOT_FOUND)` -/
def NOT_FOUND : HResult := 0x80070490

end Flightdeck
