import AioMoqt.Lib.PrefixCode

/-!
# The integer codecs of `aiopquic.buffer`

`utils/buffer.py` re-exports the transport package's `Buffer`.  Its two integer
codecs are prefix codes: RFC 9000 variable-length integers up to draft 16, and
MOQT `vi64` from draft 18 on, where the leading one bits of the first byte count
the bytes that follow it (`0x2F00` is `AF 00`, nine bytes start with `FF`).
-/

namespace AioMoqt.Buffer

open AioMoqt.Lib

/-- First bytes of a `vi64`: `k` leading ones announce `k` further bytes. -/
def vi64Classes : List ByteClass :=
  [⟨0x00, 128, 0⟩, ⟨0x80, 64, 1⟩, ⟨0xC0, 32, 2⟩, ⟨0xE0, 16, 3⟩, ⟨0xF0, 8, 4⟩,
    ⟨0xF8, 4, 5⟩, ⟨0xFC, 2, 6⟩, ⟨0xFE, 1, 7⟩, ⟨0xFF, 1, 8⟩]

/-- First bytes of an RFC 9000 integer: two tag bits for 1, 2, 4 or 8 bytes. -/
def rfc9000Classes : List ByteClass :=
  [⟨0x00, 64, 0⟩, ⟨0x40, 64, 1⟩, ⟨0x80, 64, 3⟩, ⟨0xC0, 64, 7⟩]

/-- `push_uint_vi64` / `pull_uint_vi64`. -/
def vi64 : PrefixCode :=
  PrefixCode.ofClasses vi64Classes (2 ^ 64) (by decide)
    ⟨⟨0xFF, 1, 8⟩, by decide, by decide⟩ (by decide)

/-- `push_uint_var` / `pull_uint_var`. -/
def rfc9000 : PrefixCode :=
  PrefixCode.ofClasses rfc9000Classes (2 ^ 62) (by decide)
    ⟨⟨0xC0, 64, 7⟩, by decide, by decide⟩ (by decide)

/-- A `vi64` takes nine bytes at most. -/
theorem length_vi64_le (v : Nat) : (vi64.enc v).length ≤ 9 :=
  ByteClass.length_encode_le (by decide) v

example : vi64.enc 0x2F00 = [0xAF, 0x00] := by decide
example : vi64.enc 300 = [0x81, 0x2C] ∧ rfc9000.enc 300 = [0x41, 0x2C] := by decide

end AioMoqt.Buffer
