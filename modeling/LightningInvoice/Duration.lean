/-! Spans of time in whole seconds and nanoseconds, and points in time as spans since the start of
1970. -/
namespace LightningInvoice

/-- A span of time that fits in 64 bits of seconds. -/
structure Duration where
  seconds : UInt64
  nanoseconds : Fin 1000000000
  deriving DecidableEq

namespace Duration

def ofSeconds (seconds : UInt64) : Duration := ⟨seconds, 0⟩

def longest : Duration := ⟨18446744073709551615, 999999999⟩

def shorter (a b : Duration) : Bool :=
  a.seconds < b.seconds || (a.seconds == b.seconds && a.nanoseconds < b.nanoseconds)

end Duration
end LightningInvoice
