import ClassAtlas.Text.Utf16
import ClassAtlas.Text.Utf8

/-! The encoding of texts in class files: NUL as `C0 80`, and characters beyond the first plane as
two surrogates of three bytes each. -/

namespace ClassAtlas.ModifiedUtf8

/-- Replaces the two-byte form of NUL. -/
def foldNull : List UInt8 → List UInt8
  | [] => []
  | [b] => [b]
  | b :: c :: bs =>
    if b = 0xC0 ∧ c = 0x80 then 0 :: foldNull bs else b :: foldNull (c :: bs)

/-- Standard four-byte forms are read as well. Where a sequence is broken the whole is decoded as
standard UTF-8 with replacement. -/
def decode (raw : List UInt8) : String :=
  let bytes := foldNull raw
  match Utf8.points? true bytes with
  | some ps => String.ofList (Utf16.decode (ps.flatMap Utf16.ofPoint))
  | none => Utf8.decodeReplacing bytes

end ClassAtlas.ModifiedUtf8
