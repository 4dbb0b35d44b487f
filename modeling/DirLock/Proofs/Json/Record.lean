import DirLock.Json.Record
import DirLock.Proofs.Json.Quoting

/-!
# Records are read back line by line

An object is written with a line for each member: its key, a colon and its value. Reading gets from the
end of one line to the value of the next, whatever the values are.
-/

namespace DirLock.Json

variable {key : String} {value part rest : List Char}

def line (key : String) (value : List Char) : List Char :=
  [' ', ' '] ++ renderString key.toList ++ [':', ' '] ++ value

/-- What stands before the line of a member. -/
def lead (first : Bool) : List Char := if first then ['\n'] else [',', '\n']

theorem flatten_intersperse (separator first : List Char) (lines : List (List Char)) :
    ((first :: lines).intersperse separator).flatten = first ++ lines.flatMap fun next => separator ++ next := by
  induction lines generalizing first with
  | nil => simp
  | cons next lines ih =>
    rw [List.intersperse_cons_cons, List.flatten_cons, List.flatten_cons, ih, List.flatMap_cons, List.append_assoc]

theorem renderObject_cons (member : String × List Char) (members : List (String × List Char)) :
    renderObject (member :: members) = '\x7b' :: (lead true ++ (line member.1 member.2 ++
      ((members.flatMap fun next => lead false ++ line next.1 next.2) ++ ['\n', '\x7d']))) := by
  have hlines : renderObject (member :: members) = '\x7b' :: '\n' ::
      (((line member.1 member.2 :: members.map fun next => line next.1 next.2).intersperse [',', '\n']).flatten ++
        ['\n', '\x7d']) := rfl
  rw [hlines, flatten_intersperse, List.flatMap_map, List.append_assoc]
  rfl

/-- The text of a line up to the closing quote of its key, and some text behind it. -/
def keyed (key : String) (part : List Char) : List Char :=
  ' ' :: ' ' :: '"' :: (key.toList.flatMap escapedChar ++ '"' :: part)

theorem line_append : line key value ++ rest = keyed key (':' :: ' ' :: (value ++ rest)) := by
  simp only [line, keyed, renderString, List.cons_append, List.nil_append, List.append_assoc]

theorem nextMember_quote (first : Bool) (part : List Char) :
    nextMember first (lead first ++ ' ' :: ' ' :: '"' :: part) = .ok (true, '"' :: part) := by
  cases first <;> rfl

theorem readColon_bind {α : Type} (read : List Char → Except Failure α) :
    readColon (':' :: ' ' :: rest) >>= read = read (' ' :: rest) := rfl

theorem readText_renderString (expected : String) (text rest : List Char) :
    readText expected (' ' :: (renderString text ++ rest)) = .ok (text, rest) := by
  have hskip : skipSpace (' ' :: (renderString text ++ rest)) = '"' :: (text.flatMap escapedChar ++ '"' :: rest) := by
    rw [renderString, List.append_assoc]
    rfl
  rw [readText, hskip]
  exact readString_flatMap text rest

theorem readString_key (key : String) (part : List Char) :
    readString (List.drop 1 ('"' :: (key.toList.flatMap escapedChar ++ '"' :: part))) = .ok (key.toList, part) :=
  readString_flatMap _ _

end DirLock.Json
