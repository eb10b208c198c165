/-!
The 64-bit FNV-1a hash of a byte string.
-/

namespace PubSub.Digest

/-- Each byte is mixed in by exclusive or, then the state is multiplied by the prime. -/
def fnvStep (h : UInt64) (b : UInt8) : UInt64 := (h ^^^ b.toUInt64) * 0x100000001b3

def fnv (bytes : List UInt8) : UInt64 := bytes.foldl fnvStep 0xcbf29ce484222325

end PubSub.Digest
