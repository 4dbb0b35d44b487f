import DirLock.Holder.Record
import DirLock.Lock.Error

/-!
# Reading the file about the holder

The bytes of the file must be text, and the text must describe a holder. A text that ends too early
is told apart from one that is wrong.
-/

namespace DirLock.Holder

/-- The fault that stands for a failure to understand the text. -/
def parseFault (failure : Json.Failure) (text : List Char) : Disk.Fault :=
  .described (if failure.cause.isEnd then .unexpectedEof else .invalidData) (failure.message text)

/-- The holder described by the bytes of the file at the path, if they could be read. -/
def ofContent (path : Disk.Path) (content : Except Disk.Fault (List UInt8)) :
    Except LockError Holder :=
  match content with
  | .error fault => .error (.io .readHolder path fault)
  | .ok bytes =>
    match Text.utf8Decode? bytes with
    | none => .error (.io .readHolder path .notText)
    | some text =>
      match parse text with
      | .ok holder => .ok holder
      | .error failure => .error (.io .parseHolder path (parseFault failure text))

end DirLock.Holder
