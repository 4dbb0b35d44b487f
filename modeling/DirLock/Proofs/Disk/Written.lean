import DirLock.Proofs.Disk.Outcome

/-!
# Files that were written

Writing goes to a file, or to a name that is not there yet, at the end of a way through directories and
links. The way is the same afterwards, so reading finds what was written.
-/

namespace DirLock.Disk.Tree

variable {tree after : Tree} {cwd dir cur place : Place} {path : Path} {name : Name} {links : Nat}
  {names : List Name} {follow : Bool}

theorem get?_of_walk_missing (h : tree.walk follow links cur names = .ok (.missing dir name)) :
    tree.get? (dir ++ [name]) = none := by
  induction links using Nat.strongRecOn generalizing cur names with
  | ind links ihlinks =>
    induction names generalizing cur with
    | nil =>
      rw [walk_nil] at h
      cases h
    | cons next names ih =>
      rw [walk_cons] at h
      split_ifs at h
      · exact ih h
      · exact ih h
      · cases hget : tree.get? (cur ++ [next]) with
        | none =>
          cases names with
          | nil =>
            simp only [hget, Except.ok.injEq, Spot.missing.injEq] at h
            rw [← h.1, ← h.2, hget]
          | cons next rest => simp [hget] at h
        | some found =>
          cases found with
          | file content => cases names <;> simp [hget] at h
          | directory =>
            rw [hget] at h
            exact ih h
          | link target =>
            rw [hget] at h
            dsimp only at h
            split_ifs at h
            · cases h
            · cases links with
              | zero => cases h
              | succ links => exact ihlinks links (Nat.lt_succ_self links) h

/-- Where a way ends that a file can be written to: at a file, or where nothing stands yet. -/
def IsFileAt (place : Place) (spot : Spot) : Prop :=
  (∃ content, spot = .found place (.file content)) ∨ ∃ dir name, spot = .missing dir name ∧ place = dir ++ [name]

theorem walk_insert_file {spot : Spot} (hspot : IsFileAt place spot) (content : List UInt8)
    (h : tree.walk true links cur names = .ok spot) :
    (tree.insert place (.file content)).walk true links cur names = .ok (.found place (.file content)) := by
  have hne : place ≠ [] ∧ tree.get? place ≠ some .directory ∧ ∀ target, tree.get? place ≠ some (.link target) := by
    rcases hspot with ⟨old, rfl⟩ | ⟨dir, name, rfl, rfl⟩
    · have hget := get?_of_walk (by simp) h
      refine ⟨?_, by simp [hget], by simp [hget]⟩
      rintro rfl
      cases hget
    · have hget := get?_of_walk_missing h
      exact ⟨by simp, by simp [hget], by simp [hget]⟩
  obtain ⟨hne, hdirectory, hlink⟩ := hne
  induction links using Nat.strongRecOn generalizing cur names with
  | ind links ihlinks =>
    induction names generalizing cur with
    | nil =>
      rw [walk_nil] at h
      obtain rfl := Except.ok.inj h
      rcases hspot with ⟨old, hspot⟩ | ⟨dir, name, hspot, -⟩ <;> cases hspot
    | cons next names ih =>
      rw [walk_cons] at h ⊢
      split_ifs at h ⊢
      · exact ih h
      · exact ih h
      · rw [get?_insert hne]
        by_cases hat : place = cur ++ [next]
        · rw [if_pos hat]
          rw [← hat] at h
          cases names with
          | nil => rw [hat]
          | cons after rest =>
            cases hget : tree.get? place with
            | none => simp [hget] at h
            | some found =>
              cases found with
              | file old => simp [hget] at h
              | directory => exact absurd hget hdirectory
              | link target => exact absurd hget (hlink target)
        · rw [if_neg hat]
          cases hget : tree.get? (cur ++ [next]) with
          | none =>
            cases names with
            | cons after rest => simp [hget] at h
            | nil =>
              obtain rfl : spot = .missing cur next := by simpa [hget] using h.symm
              rcases hspot with ⟨old, hspot⟩ | ⟨dir, name, hspot, hplace⟩
              · cases hspot
              · cases hspot
                exact absurd hplace hat
          | some found =>
            cases found with
            | file old =>
              cases names with
              | cons after rest => simp [hget] at h
              | nil =>
                obtain rfl : spot = .found (cur ++ [next]) (.file old) := by simpa [hget] using h.symm
                rcases hspot with ⟨old, hspot⟩ | ⟨dir, name, hspot, -⟩
                · cases hspot
                  exact absurd rfl hat
                · cases hspot
            | directory =>
              rw [hget] at h
              exact ih h
            | link target =>
              rw [hget] at h
              dsimp only at h ⊢
              rw [if_neg (by simp)] at h ⊢
              cases links with
              | zero => cases h
              | succ links => exact ihlinks links (Nat.lt_succ_self links) h

theorem readFile_writeFile {content : List UInt8} (h : tree.writeFile cwd path content = .ok after) :
    after.readFile cwd path = .ok content := by
  rw [writeFile] at h
  split_ifs at h
  · obtain ⟨-, -, h⟩ := ok_of_bind h
    cases h
  · obtain ⟨spot, hseek, h⟩ := ok_of_bind h
    have hwalk := walk_of_seek hseek
    obtain ⟨place, hspot, rfl⟩ : ∃ place, IsFileAt place spot ∧ after = tree.insert place (.file content) := by
      cases spot with
      | missing dir name => exact ⟨dir ++ [name], .inr ⟨dir, name, rfl, rfl⟩, (Except.ok.inj h).symm⟩
      | found place entry =>
        cases entry with
        | file old => exact ⟨place, .inl ⟨old, rfl⟩, (Except.ok.inj h).symm⟩
        | directory => cases h
        | link target => cases h
    rw [seek] at hseek
    obtain ⟨checked, hcheck, -⟩ := ok_of_bind hseek
    rw [readFile, seek, hcheck, walk_insert_file hspot content hwalk]
    rfl

end DirLock.Disk.Tree
