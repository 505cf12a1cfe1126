/-!
# Cyclic checksums

The 32-bit checksum that closes a compressed file. A byte is taken bit by bit, lowest first:

    checksum [] = 0        checksum of "123456789" = 0xCBF43926
-/

namespace Bulletin.Tarball

def generator : UInt32 := 0xEDB88320

def shiftOut (c : UInt32) : UInt32 := if c &&& 1 = 1 then (c >>> 1) ^^^ generator else c >>> 1

def addByte (c : UInt32) (b : UInt8) : UInt32 :=
  let c := c ^^^ b.toUInt32
  shiftOut (shiftOut (shiftOut (shiftOut (shiftOut (shiftOut (shiftOut (shiftOut c)))))))

def checksum (bytes : List UInt8) : UInt32 := bytes.foldl addByte 0xFFFFFFFF ^^^ 0xFFFFFFFF

end Bulletin.Tarball
