import DirLock.Config.Basic
import DirLock.Yaml.Printer

/-!
# Settings as YAML

The settings are written as a mapping with one line, or one scalar, for each; a directory that is
not set is left out, and one whose bytes are no text cannot be written.
-/

namespace DirLock.Config

def line (name : String) (value : List Char) : List Char :=
  Yaml.Printer.ended (name.toList ++ ':' :: ' ' :: value)

def delayLine (config : Config) : List Char :=
  line "wait_delay_ms" (Nat.toDigits 10 config.waitDelay.toNat)

def toYaml (config : Config) : Except LockError (List Char) :=
  match config.scratch with
  | none => .ok config.delayLine
  | some dir =>
    match Text.utf8Decode? dir.bytes with
    | some text => .ok (config.delayLine ++ line "scratch_dir" (Yaml.Printer.scalar text))
    | none =>
      .error (.config
        "failed to serialize config to YAML: path contains invalid UTF-8 characters")

end DirLock.Config
