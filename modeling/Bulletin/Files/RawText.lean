import Bulletin.Text.Lossy

/-!
# Text as files have it

The names of files, and paths, are bytes and need not be text. A text is kept as its bytes, and
bytes are read with replacement characters where they are no text, so that different names may read the
same:

    ofString "é"                    = ⟨[0xC3, 0xA9]⟩
    (⟨[0x61, 0xFF]⟩ : RawText).text = "a\uFFFD"
    (⟨[0x61, 0xFE]⟩ : RawText).text = "a\uFFFD"
-/

namespace Bulletin

/-- Bytes that may be those of a text. -/
structure RawText where
  bytes : List UInt8
  deriving DecidableEq, Repr, Inhabited

namespace RawText

def ofString (s : String) : RawText := ⟨s.toList.flatMap String.utf8EncodeChar⟩

instance : Coe String RawText := ⟨ofString⟩

def text (r : RawText) : String := Text.decode r.bytes

instance : Append RawText := ⟨fun r r' => ⟨r.bytes ++ r'.bytes⟩⟩

instance : Ord RawText := ⟨compareOn bytes⟩

end RawText

end Bulletin
