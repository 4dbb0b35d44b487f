import DirLock.Holder.File
import DirLock.Proofs.Disk.Written
import DirLock.Proofs.Json.Numeral
import DirLock.Proofs.Json.Record
import DirLock.Proofs.Text.Utf8
import DirLock.Proofs.Time.Stamp

/-!
# The file about a holder is read back

A holder is written with a line for each field, and each line is read back as its field, the fields read
before it kept. A process number that is not known has no line.
-/

namespace DirLock.Holder

variable {holder : Holder} {fields : Fields} {rest : List Char} {fuel : Nat} {first : Bool}

/-- The members of the object that stands for a holder. -/
def membersOf (holder : Holder) : List (String × List Char) :=
  ("owner", Json.renderString holder.owner.toList) ::
    ((holder.pid.toList.map fun pid => ("pid", Nat.toDigits 10 pid.toNat)) ++
      [("created_at", Json.renderString (Time.Stamp.render holder.createdAt))])

theorem render_eq (holder : Holder) : holder.render = Json.renderObject (membersOf holder) := by
  rw [render, membersOf]
  cases holder.pid <;> rfl

theorem members_ownerKey (part : List Char) (h : fields.owner = none) :
    members (fuel + 1) first fields (Json.lead first ++ Json.keyed "owner" part) =
      Json.readColon part >>= fun rest => readOwner rest >>= fun read =>
        members fuel false { fields with owner := some read.1 } read.2 := by
  rw [members, Json.keyed, Json.nextMember_quote]
  simp only [bind, Except.bind, Json.readString_key, String.ofList_toList, h]
  rfl

theorem members_pidKey (part : List Char) (h : fields.pid = none) :
    members (fuel + 1) first fields (Json.lead first ++ Json.keyed "pid" part) =
      Json.readColon part >>= fun rest => readPid rest >>= fun read =>
        members fuel false { fields with pid := some read.1 } read.2 := by
  rw [members, Json.keyed, Json.nextMember_quote]
  simp only [bind, Except.bind, Json.readString_key, String.ofList_toList, h]
  rfl

theorem members_createdAtKey (part : List Char) (h : fields.createdAt = none) :
    members (fuel + 1) first fields (Json.lead first ++ Json.keyed "created_at" part) =
      Json.readColon part >>= fun rest => readCreatedAt rest >>= fun read =>
        members fuel false { fields with createdAt := some read.1 } read.2 := by
  rw [members, Json.keyed, Json.nextMember_quote]
  simp only [bind, Except.bind, Json.readString_key, String.ofList_toList, h]
  rfl

theorem members_owner (owner : String) (h : fields.owner = none) :
    members (fuel + 1) first fields (Json.lead first ++ (Json.line "owner" (Json.renderString owner.toList) ++ rest)) =
      members fuel false { fields with owner := some owner } rest := by
  have hread : readOwner (' ' :: (Json.renderString owner.toList ++ rest)) = .ok (owner, rest) := by
    simp only [readOwner, Json.readText_renderString, bind, Except.bind, String.ofList_toList]
    rfl
  rw [Json.line_append, members_ownerKey _ h, Json.readColon_bind, hread]
  rfl

theorem members_pid (pid : UInt32) (h : fields.pid = none) (hends : Json.EndsNumber rest) :
    members (fuel + 1) first fields (Json.lead first ++ (Json.line "pid" (Nat.toDigits 10 pid.toNat) ++ rest)) =
      members fuel false { fields with pid := some (some pid) } rest := by
  have hread : readPid (' ' :: (Nat.toDigits 10 pid.toNat ++ rest)) = .ok (some pid, rest) :=
    Json.readOptional_toDigits pid hends
  rw [Json.line_append, members_pidKey _ h, Json.readColon_bind, hread]
  rfl

theorem members_createdAt {t : Time.Instant} (ht : t.Representable) (h : fields.createdAt = none) :
    members (fuel + 1) first fields
        (Json.lead first ++ (Json.line "created_at" (Json.renderString (Time.Stamp.render t)) ++ rest)) =
      members fuel false { fields with createdAt := some t } rest := by
  have hread : readCreatedAt (' ' :: (Json.renderString (Time.Stamp.render t) ++ rest)) = .ok (t, rest) := by
    simp only [readCreatedAt, Json.readText_renderString, bind, Except.bind, Time.Stamp.read_render ht]
    rfl
  rw [Json.line_append, members_createdAtKey _ h, Json.readColon_bind, hread]
  rfl

theorem members_end : members (fuel + 1) false fields ['\n', '\x7d'] = .ok (fields.toHolder, ['\x7d']) := rfl

theorem members_membersOf (h : holder.createdAt.Representable) : ∃ text,
    Json.renderObject (membersOf holder) = '\x7b' :: text ∧
      members (fuel + 4) true Fields.none text = .ok (.ok holder, ['\x7d']) := by
  obtain ⟨owner, pid, createdAt⟩ := holder
  refine ⟨_, Json.renderObject_cons _ _, ?_⟩
  rw [members_owner owner rfl]
  cases pid with
  | none =>
    rw [Option.toList_none, List.map_nil, List.nil_append, List.flatMap_singleton, List.append_assoc,
      members_createdAt h rfl, members_end]
    rfl
  | some pid =>
    rw [Option.toList_some, List.map_singleton, List.singleton_append, List.flatMap_cons, List.flatMap_singleton]
    simp only [List.append_assoc]
    rw [members_pid pid rfl, members_createdAt h rfl, members_end]
    · rfl
    · intro c hc
      cases hc
      decide

theorem parse_render (h : holder.createdAt.Representable) : parse holder.render = .ok holder := by
  have hlength : 3 ≤ holder.render.length := by
    rw [render_eq, membersOf, Json.renderObject_cons]
    simp only [List.length_cons, List.length_append]
    omega
  obtain ⟨fuel, hfuel⟩ := Nat.exists_eq_add_of_le' hlength
  obtain ⟨text, htext, hread⟩ := @members_membersOf holder fuel h
  rw [parse, hfuel, render_eq, htext]
  simp only [Json.readAll, Json.readRecord, bind, Except.bind]
  have hskip : Json.skipSpace ('\x7b' :: text) = '\x7b' :: text := rfl
  simp only [hskip, hread]
  rfl

/-- A holder written to a file is read back from it, whatever its owner is called and whenever it claimed.
A process number that is not known is not written. -/
theorem ofContent_render (holder : Holder) (h : holder.createdAt.Representable) :
    (∀ (tree after : Disk.Tree) (cwd : Disk.Place) (path : Disk.Path),
      tree.writeFile cwd path (Text.utf8Encode holder.render) = .ok after →
        ofContent path (after.readFile cwd path) = .ok holder) ∧
      (holder.pid = none → holder.render = Json.renderObject
        [("owner", Json.renderString holder.owner.toList),
          ("created_at", Json.renderString (Time.Stamp.render holder.createdAt))]) := by
  constructor
  · intro tree after cwd path hwrite
    rw [Disk.Tree.readFile_writeFile hwrite]
    simp only [ofContent, Text.utf8Decode?_encode, parse_render h]
  · intro hpid
    rw [render_eq, membersOf, hpid]
    rfl

/-- A claim inside a leap second before the year 0, by an owner with a quote and a control character in its
name and no process number. -/
theorem ofContent_render_leap : ∃ (holder : Holder) (after : Disk.Tree), holder.pid = none ∧
    holder.createdAt.Representable ∧ holder.createdAt.date.year = -1 ∧ holder.createdAt.isLeap = true ∧
      Disk.Tree.empty.writeFile [] ⟨[0x2f, 0x69]⟩ (Text.utf8Encode holder.render) = .ok after ∧
        ofContent ⟨[0x2f, 0x69]⟩ (after.readFile [] ⟨[0x2f, 0x69]⟩) = .ok holder := by
  have hrepresentable : (Time.Instant.mk (-62167219201) 1500000000).Representable :=
    ⟨by decide, by decide, by decide⟩
  have hwrite (content : List UInt8) : Disk.Tree.empty.writeFile [] ⟨[0x2f, 0x69]⟩ content =
      .ok (Disk.Tree.empty.insert [[0x69]] (.file content)) := rfl
  exact ⟨⟨"a\"\x01é", none, ⟨-62167219201, 1500000000⟩⟩, _, rfl, hrepresentable, by decide, by decide, hwrite _,
    (ofContent_render _ hrepresentable).1 _ _ _ _ (hwrite _)⟩

end DirLock.Holder
