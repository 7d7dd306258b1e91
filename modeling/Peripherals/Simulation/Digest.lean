import Peripherals.Word

/-! A short digest of long data: 32-bit FNV-1a over its bytes. -/

namespace Peripherals.Simulation.Digest

def start : UInt32 := 0x811C9DC5

def addByte (digest : UInt32) (byte : UInt8) : UInt32 := (digest ^^^ byte.toUInt32) * 0x01000193

def addWord (digest word : UInt32) : UInt32 := (Word.bytes word).foldl addByte digest

def ofBytes (bytes : Array UInt8) : UInt32 := bytes.foldl addByte start

def ofWords (words : Array UInt32) : UInt32 := words.foldl addWord start

end Peripherals.Simulation.Digest
