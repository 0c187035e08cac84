namespace JarReader

inductive SystemFault where
  | notFound
  | alreadyExists
  | notADirectory
  | isADirectory
  | busy
  | invalidArgument
  | nameTooLong
  | directoryNotEmpty
  | tooManyLinks
  | nulInName
  deriving DecidableEq, Repr

inductive IoFault where
  | system (fault : SystemFault)
  | endOfData (wanted position available : Nat)
  | invalidSeek
  | corruptDeflate
  | incompleteDeflate
  deriving DecidableEq, Repr

inductive IoKind where
  | notFound
  | alreadyExists
  | notADirectory
  | isADirectory
  | resourceBusy
  | invalidInput
  | invalidData
  | invalidFilename
  | directoryNotEmpty
  | filesystemLoop
  | unexpectedEof
  deriving DecidableEq, Repr

inductive Zip64Fault where
  | locatorSignature
  | recordSignature
  | recordNotFound
  deriving DecidableEq, Repr

inductive DirectoryFault where
  | tooManyEntries
  | truncatedHeader
  | badSignature
  | recordOverrun
  deriving DecidableEq, Repr

inductive FormatFault where
  | missingEndRecord
  | zip64 (fault : Zip64Fault)
  | directory (offset : Nat) (fault : DirectoryFault)
  | entryCount (declared found : Nat)
  | localHeader (offset : Nat)
  | startUnderflow
  deriving DecidableEq, Repr

inductive Failure where
  | io (fault : IoFault)
  | format (fault : FormatFault)
  | outOfBounds (offset length available : Nat)
  | unsupportedMethod (name : String) (method : UInt16)
  | compressedNestedJar (name : String)
  | notFound (name : String)
  | invalidUrl (url : String)
  /-- A subtraction below zero. It ends the process, and no caller handles it. -/
  | overflow
  deriving DecidableEq, Repr

namespace SystemFault

/-- The number and the text of the system's error table; a name with a NUL never reaches it. -/
def message : SystemFault → String
  | notFound => "No such file or directory (os error 2)"
  | alreadyExists => "File exists (os error 17)"
  | notADirectory => "Not a directory (os error 20)"
  | isADirectory => "Is a directory (os error 21)"
  | busy => "Device or resource busy (os error 16)"
  | invalidArgument => "Invalid argument (os error 22)"
  | nameTooLong => "File name too long (os error 36)"
  | directoryNotEmpty => "Directory not empty (os error 39)"
  | tooManyLinks => "Too many levels of symbolic links (os error 40)"
  | nulInName => "file name contained an unexpected NUL byte"

def kind : SystemFault → IoKind
  | notFound => .notFound
  | alreadyExists => .alreadyExists
  | notADirectory => .notADirectory
  | isADirectory => .isADirectory
  | busy => .resourceBusy
  | invalidArgument => .invalidInput
  | nameTooLong => .invalidFilename
  | directoryNotEmpty => .directoryNotEmpty
  | tooManyLinks => .filesystemLoop
  | nulInName => .invalidInput

end SystemFault

namespace IoFault

def message : IoFault → String
  | system fault => fault.message
  | endOfData wanted position available =>
    s!"needed {wanted} bytes at position {position}, data ends at {available}"
  | invalidSeek => "invalid seek to a negative or overflowing position"
  | corruptDeflate => "corrupt deflate stream"
  | incompleteDeflate => "incomplete deflate stream"

def kind : IoFault → IoKind
  | system fault => fault.kind
  | endOfData .. => .unexpectedEof
  | invalidSeek => .invalidInput
  | corruptDeflate => .invalidInput
  | incompleteDeflate => .unexpectedEof

end IoFault

def Zip64Fault.message : Zip64Fault → String
  | locatorSignature => "bad locator signature"
  | recordSignature => "bad record signature"
  | recordNotFound => "record not found before locator"

def DirectoryFault.message : DirectoryFault → String
  | tooManyEntries => "too many entries"
  | truncatedHeader => "truncated header"
  | badSignature => "bad signature"
  | recordOverrun => "record extends past the end of the directory"

def hexText (n : Nat) : String := .ofList (Nat.toDigits 16 n)

def FormatFault.message : FormatFault → String
  | missingEndRecord => "end of central directory record not found"
  | zip64 fault => s!"invalid zip64 end of central directory: {fault.message}"
  | directory offset fault =>
    s!"invalid central directory at offset 0x{hexText offset}: {fault.message}"
  | entryCount declared found =>
    s!"central directory declares {declared} entries but holds {found}"
  | localHeader offset => s!"invalid local file header at offset 0x{hexText offset}"
  | startUnderflow => "central directory position is before the start of the data"

namespace Failure

def message : Failure → String
  | io fault => s!"I/O error: {fault.message}"
  | format fault => s!"invalid archive: {fault.message}"
  | outOfBounds offset length available =>
    s!"range [{offset}, +{length}) is outside data of length {available}"
  | unsupportedMethod name method =>
    s!"unsupported compression method {method} for entry '{name}'"
  | compressedNestedJar name =>
    s!"unable to open nested entry '{name}': nested jar files must be stored without compression"
  | notFound name => s!"entry '{name}' not found"
  | invalidUrl url => s!"invalid jar URL: {url}"
  | overflow => "attempt to subtract with overflow"

/-- What a failure is to a caller that knows input and output failures only. -/
def ioKind : Failure → IoKind
  | io fault => fault.kind
  | _ => .invalidData

def cause? : Failure → Option String
  | io fault => some fault.message
  | format fault => some fault.message
  | _ => none

end Failure
end JarReader
