import DirLock.Lock.Release
import DirLock.Machine
import DirLock.Proofs.Holder.RoundTrip
import DirLock.Proofs.Json.Cut

/-!
# A file about a holder that was cut off

The file about a holder is not written in one piece, so it may be found cut off anywhere. No such file is taken
for one that is whole. If it ends between two characters, its text ends too early: inside a line, or behind one,
since nothing but the last brace ends the object. If it ends inside a character, its bytes are no text.
-/

namespace DirLock.Holder

open Json (RunsOut keyed lead line)
open Text (IsCut EndsInside)

variable {holder : Holder} {fields more : Fields} {key : String} {value rest short : List Char} {fuel : Nat}
  {first : Bool} {bytes : List UInt8}

/-! ## Values -/

theorem readOwner_runsOut {owner : List Char} (h : IsCut short (' ' :: Json.renderString owner)) :
    RunsOut (readOwner short) := RunsOut.bind (Json.readText_runsOut _ h) _

theorem readCreatedAt_runsOut {stamp : List Char} (h : IsCut short (' ' :: Json.renderString stamp)) :
    RunsOut (readCreatedAt short) := RunsOut.bind (Json.readText_runsOut _ h) _

theorem readPid_cases {pid : UInt32} (h : IsCut short (' ' :: Nat.toDigits 10 pid.toNat)) :
    RunsOut (readPid short) ∨ ∃ left, readPid short = .ok (some left, []) := by
  rcases h.cons_cases with rfl | ⟨digits, rfl, hdigits⟩
  · exact .inl ⟨_, rfl, rfl⟩
  by_cases hne : digits = []
  · rw [hne]
    exact .inl ⟨_, rfl, rfl⟩
  obtain ⟨n, hn, rfl⟩ := Json.toDigits_of_isCut hdigits hne
  have hsize : (UInt32.ofNat n).toNat = n := UInt32.toNat_ofNat_of_lt' (Nat.lt_of_le_of_lt hn pid.toNat_lt)
  have hread := Json.readOptional_toDigits (UInt32.ofNat n) Json.endsNumber_nil
  rw [hsize, List.append_nil] at hread
  exact .inr ⟨_, hread⟩

/-! ## Lines -/

/-- What is left of the end of the object. -/
theorem members_runsOut_of_end (hfuel : short.length < fuel) (h : IsCut short ['\n', '\x7d']) :
    RunsOut (members fuel false fields short) := by
  obtain ⟨fuel, rfl⟩ := Nat.exists_eq_add_of_lt hfuel
  rcases h.cons_cases with rfl | ⟨rest, rfl, hrest⟩
  · exact ⟨_, rfl, rfl⟩
  · rw [hrest.eq_nil]
    exact ⟨_, rfl, rfl⟩

/-- A line that is left whole is read, and what comes after it runs out. The line of a field and its value run
out if they were cut off themselves. -/
theorem members_runsOut_of_line (hfuel : short.length < fuel) (h : IsCut short (lead first ++ (line key value ++ rest)))
    (hkey : ∀ fuel part, part.length < fuel → IsCut part (':' :: ' ' :: value) →
      RunsOut (members (fuel + 1) first fields (lead first ++ keyed key part)))
    (hline : ∀ fuel short, IsCut short rest →
      members (fuel + 1) first fields (lead first ++ (line key value ++ short)) = members fuel false more short)
    (hrest : ∀ fuel short, short.length < fuel → IsCut short rest → RunsOut (members fuel false more short)) :
    RunsOut (members fuel first fields short) := by
  obtain ⟨fuel, rfl⟩ := Nat.exists_eq_add_one_of_ne_zero (Nat.ne_zero_of_lt hfuel)
  rcases Json.line_cases h with hlead | ⟨part, rfl, hpart⟩ | ⟨part, rfl, hpart⟩ | ⟨short, rfl, hshort⟩
  · exact (Json.nextMember_runsOut hlead).bind _
  · rw [members, Json.nextMember_quote]
    exact (Json.readString_runsOut hpart).bind _
  · refine hkey fuel part ?_ hpart
    simp only [keyed, List.length_append, List.length_cons] at hfuel
    omega
  · rw [hline fuel short hshort]
    refine hrest fuel short ?_ hshort
    simp only [Json.line_append, keyed, List.length_append, List.length_cons] at hfuel
    omega

theorem members_runsOut_of_createdAt {t : Time.Instant} (ht : t.Representable) (hnone : fields.createdAt = none)
    (hfuel : short.length < fuel)
    (h : IsCut short
      (lead first ++ (line "created_at" (Json.renderString (Time.Stamp.render t)) ++ ['\n', '\x7d']))) :
    RunsOut (members fuel first fields short) := by
  refine members_runsOut_of_line hfuel h (fun fuel part _ hpart => ?_)
    (fun fuel short _ => members_createdAt ht hnone) (fun fuel short => members_runsOut_of_end)
  rw [members_createdAtKey part hnone]
  exact Json.readColon_runsOut (fun part hpart => (readCreatedAt_runsOut hpart).bind _) hpart

theorem members_runsOut_of_pidKey {pid : UInt32} {part : List Char} (hnone : fields.pid = none)
    (hfuel : part.length < fuel) (h : IsCut part (':' :: ' ' :: Nat.toDigits 10 pid.toNat)) :
    RunsOut (members (fuel + 1) first fields (lead first ++ keyed "pid" part)) := by
  rw [members_pidKey part hnone]
  refine Json.readColon_runsOut (fun part hpart => ?_) h
  rcases readPid_cases hpart with hout | ⟨left, hread⟩
  · exact hout.bind _
  -- The number was read, so it is the next line that the text ends before.
  · rw [hread]
    exact members_runsOut_of_end (Nat.zero_lt_of_lt hfuel) ⟨_, List.cons_ne_nil _ _, rfl⟩

theorem members_runsOut_of_pid (pid : UInt32) (hnone : fields.pid = none) (hends : Json.EndsNumber rest)
    (hfuel : short.length < fuel)
    (h : IsCut short (lead first ++ (line "pid" (Nat.toDigits 10 pid.toNat) ++ rest)))
    (hrest : ∀ fuel short, short.length < fuel → IsCut short rest →
      RunsOut (members fuel false { fields with pid := some (some pid) } short)) :
    RunsOut (members fuel first fields short) :=
  members_runsOut_of_line hfuel h (fun _ _ => members_runsOut_of_pidKey hnone)
    (fun _ _ hshort => members_pid pid hnone (hends.of_isCut hshort)) hrest

theorem members_runsOut_of_owner (owner : String) (hnone : fields.owner = none) (hfuel : short.length < fuel)
    (h : IsCut short (lead first ++ (line "owner" (Json.renderString owner.toList) ++ rest)))
    (hrest : ∀ fuel short, short.length < fuel → IsCut short rest →
      RunsOut (members fuel false { fields with owner := some owner } short)) :
    RunsOut (members fuel first fields short) := by
  refine members_runsOut_of_line hfuel h (fun fuel part _ hpart => ?_) (fun _ _ _ => members_owner owner hnone) hrest
  rw [members_ownerKey part hnone]
  exact Json.readColon_runsOut (fun part hpart => (readOwner_runsOut hpart).bind _) hpart

/-! ## The file -/

theorem parse_runsOut_of_representable (ht : holder.createdAt.Representable) (h : IsCut short holder.render) :
    RunsOut (parse short) := by
  obtain ⟨owner, pid, createdAt⟩ := holder
  rw [render_eq, membersOf, Json.renderObject_cons] at h
  rcases h.cons_cases with rfl | ⟨rest, rfl, hrest⟩
  · exact ⟨_, rfl, rfl⟩
  refine RunsOut.bind (RunsOut.bind ?_ _) _
  refine members_runsOut_of_owner owner rfl (Nat.lt_succ_of_lt (Nat.lt_succ_self _)) hrest fun fuel short hfuel h => ?_
  cases pid with
  | none =>
    simp only [Option.toList_none, List.map_nil, List.nil_append, List.flatMap_singleton, List.append_assoc] at h
    exact members_runsOut_of_createdAt ht rfl hfuel h
  | some pid =>
    simp only [Option.toList_some, List.map_singleton, List.singleton_append, List.flatMap_cons,
      List.append_assoc] at h
    refine members_runsOut_of_pid pid rfl ?_ hfuel h fun fuel short hfuel h => ?_
    · intro c hc
      cases hc
      decide
    · exact members_runsOut_of_createdAt ht rfl hfuel h

theorem parse_runsOut (hrange : Time.Instant.inRange holder.createdAt.second = true)
    (hnano : holder.createdAt.nano < 2 * Time.nanosPerSecond) (h : IsCut short holder.render) :
    RunsOut (parse short) := by
  obtain ⟨t, ht, hrender⟩ := Time.Stamp.exists_representable hrange hnano
  refine @parse_runsOut_of_representable { holder with createdAt := t } short ht ?_
  have hsame : ({ holder with createdAt := t } : Holder).render = holder.render := by
    rw [render_eq, render_eq, membersOf, membersOf, hrender]
  rwa [hsame]

theorem ofContent_of_isCut (hrange : Time.Instant.inRange holder.createdAt.second = true)
    (hnano : holder.createdAt.nano < 2 * Time.nanosPerSecond) (h : IsCut short holder.render) (path : Disk.Path) :
    ∃ fault, ofContent path (.ok (Text.utf8Encode short)) = .error (.io .parseHolder path fault) ∧
      fault.kind = .unexpectedEof := by
  obtain ⟨failure, hparse, hend⟩ := parse_runsOut hrange hnano h
  refine ⟨parseFault failure short, ?_, if_pos hend⟩
  simp only [ofContent, Text.utf8Decode?_encode, hparse]

theorem ofContent_of_endsInside {text : List Char} (h : EndsInside text bytes) (path : Disk.Path) :
    ofContent path (.ok bytes) = .error (.io .readHolder path .notText) := by
  simp only [ofContent, h.utf8Decode?]

/-- Whatever part of the file about a holder is left, the holder is not read from it: either the text ends too
early, or the bytes are no text because they end inside a character. A lock whose file that is has no holder to
tell of. -/
theorem ofContent_cut (hrange : Time.Instant.inRange holder.createdAt.second = true)
    (hnano : holder.createdAt.nano < 2 * Time.nanosPerSecond) (h : IsCut bytes (Text.utf8Encode holder.render)) :
    (∀ (tree : Disk.Tree) (cwd : Disk.Place) (path : Disk.Path), tree.readFile cwd path = .ok bytes →
      ((∃ text, bytes = Text.utf8Encode text) →
        ∃ fault, ofContent path (tree.readFile cwd path) = .error (.io .parseHolder path fault) ∧
          fault.kind = .unexpectedEof) ∧
      (EndsInside holder.render bytes →
        ∃ fault, ofContent path (tree.readFile cwd path) = .error (.io .readHolder path fault) ∧
          fault.kind = .invalidData)) ∧
      ((∃ text, bytes = Text.utf8Encode text) ↔ ¬EndsInside holder.render bytes) ∧
      ∀ (supply : Supply) (programs : Machine.Programs) (lock : Lock) (machine : Machine),
        machine.tree.readFile machine.directory lock.holderFile = .ok bytes →
          (lock.holder?.run (Machine.answer supply programs) machine).1 = none := by
  have hexclusive : (∃ text, bytes = Text.utf8Encode text) → ¬EndsInside holder.render bytes := by
    rintro ⟨text, rfl⟩ hinside
    cases (Text.utf8Decode?_encode text).symm.trans hinside.utf8Decode?
  have hcases := h.utf8Encode_cases
  refine ⟨fun tree cwd path hread => ⟨fun htext => ?_, fun hinside => ?_⟩, ⟨hexclusive, fun hwhole => ?_⟩,
    fun supply programs lock machine hread => ?_⟩
  · obtain ⟨short, hshort, rfl⟩ := hcases.resolve_right (hexclusive htext)
    rw [hread]
    exact ofContent_of_isCut hrange hnano hshort path
  · rw [hread]
    exact ⟨_, ofContent_of_endsInside hinside path, rfl⟩
  · obtain ⟨short, -, hbytes⟩ := hcases.resolve_right hwhole
    exact ⟨short, hbytes⟩
  · have hrun : (lock.holder?.run (Machine.answer supply programs) machine).1 =
        (ofContent lock.holderFile (machine.tree.readFile machine.directory lock.holderFile)).toOption := rfl
    rw [hrun, hread]
    rcases hcases with ⟨short, hshort, rfl⟩ | hinside
    · obtain ⟨fault, herror, -⟩ := ofContent_of_isCut hrange hnano hshort lock.holderFile
      rw [herror]
      rfl
    · rw [ofContent_of_endsInside hinside]
      rfl

/-- Two parts of the file about a claim whose nanoseconds pass a whole second inside a minute: one ends inside a
character of the owner, the other inside the process number, where 12 is left of 120. -/
theorem ofContent_cut_in_character_and_number : ∃ (holder : Holder) (tree : Disk.Tree) (fault fault' : Disk.Fault),
    holder.pid = some 120 ∧ holder.createdAt = ⟨0, 1500000000⟩ ∧
      tree.readFile [] ⟨[0x2f, 0x63]⟩ = .ok ((Text.utf8Encode holder.render).take 15) ∧
      ofContent ⟨[0x2f, 0x63]⟩ (tree.readFile [] ⟨[0x2f, 0x63]⟩) = .error (.io .readHolder ⟨[0x2f, 0x63]⟩ fault) ∧
      fault.kind = .invalidData ∧
      tree.readFile [] ⟨[0x2f, 0x6e]⟩ = .ok ((Text.utf8Encode holder.render).take 32) ∧
      ofContent ⟨[0x2f, 0x6e]⟩ (tree.readFile [] ⟨[0x2f, 0x6e]⟩) = .error (.io .parseHolder ⟨[0x2f, 0x6e]⟩ fault') ∧
      fault'.kind = .unexpectedEof := by
  have hrange : Time.Instant.inRange 0 = true := by decide
  have hnano : 1500000000 < 2 * Time.nanosPerSecond := by decide
  let holder : Holder := ⟨"é@b", some 120, ⟨0, 1500000000⟩⟩
  let tree (a b : List UInt8) : Disk.Tree := (Disk.Tree.empty.insert [[0x63]] (.file a)).insert [[0x6e]] (.file b)
  have hread (a b : List UInt8) : (tree a b).readFile [] ⟨[0x2f, 0x63]⟩ = .ok a := rfl
  have hread' (a b : List UInt8) : (tree a b).readFile [] ⟨[0x2f, 0x6e]⟩ = .ok b := rfl
  have hcut (n : Nat) (h : n < (Text.utf8Encode holder.render).length) :=
    @ofContent_cut holder _ hrange hnano (Text.isCut_take h)
  have hinside : EndsInside holder.render ((Text.utf8Encode holder.render).take 15) :=
    ⟨holder.render.take 14, 'é', holder.render.drop 15, [0xc3], by decide +kernel, by decide +kernel,
      ⟨[0xa9], by decide, by decide⟩, by decide⟩
  have htext : (Text.utf8Encode holder.render).take 32 = Text.utf8Encode (holder.render.take 31) := by decide +kernel
  obtain ⟨fault, herror, hkind⟩ := ((hcut 15 (by decide +kernel)).1 _ _ _ (hread _ _)).2 hinside
  obtain ⟨fault', herror', hkind'⟩ := ((hcut 32 (by decide +kernel)).1 _ _ _ (hread' _ _)).1 ⟨_, htext⟩
  exact ⟨holder, tree _ _, fault, fault', rfl, rfl, hread _ _, herror, hkind, hread' _ _, herror', hkind'⟩

end DirLock.Holder
