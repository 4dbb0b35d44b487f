import DirLock.Proofs.Disk.Plot

/-!
# Directories of files

What a request does to a directory that holds files and nothing else: write one more file, remove the
last one, remove the directory when it is empty. Each is refused only if the request does not take the
path, and changes nothing outside of the directory.
-/

namespace DirLock.Disk.Tree

variable {tree : Tree} {cwd dir : Place} {path : Path} {name : Name}
  {files : List (Name × List UInt8)}

section Folder

variable (h : tree.Names cwd path dir name) (hsound : tree.Sound)
  (hshort : name.length ≤ Path.longestName) {file : Name} (hfile : Path.IsName file)
include h hsound hshort hfile

theorem Names.writeFile_new (hbelow : tree.below (dir ++ [name]) = filesView files)
    (hnew : file ∉ files.map Prod.fst) (content : List UInt8) :
    (∃ after, tree.writeFile cwd (path.join ⟨file⟩) content = .ok after ∧
      after.below (dir ++ [name]) = filesView (files ++ [(file, content)]) ∧ after.Sound ∧
      ChangesOn (dir ++ [name]) tree after) ∨
    (∃ fault, tree.writeFile cwd (path.join ⟨file⟩) content = .error fault ∧
      ¬ Fits (path.join ⟨file⟩) file) := by
  have hget : tree.get? (dir ++ [name]) = some .directory := get?_of_below hbelow
  have hnames := h.join hshort hget hfile
  have hnone : tree.get? (dir ++ [name] ++ [file]) = none := by
    rw [get?_append_of_below hbelow, filesView, lookup_eq_none hnew]
    rfl
  by_cases hfit : Fits (path.join ⟨file⟩) file
  · exact .inl ⟨_, hnames.writeFile_of_none hfit hnone content, below_insert_file hbelow hnew content,
      hsound.insert (by simp) (by rwa [List.dropLast_concat]) (.inr (by rw [hnone]; simp)),
      changesOn_insert (by simp) (List.prefix_append _ _) _⟩
  · exact .inr ⟨_, hnames.writeFile_of_not_fits hfit content, hfit⟩

omit hshort hfile in
theorem Names.unlink_last {content : List UInt8}
    (hbelow : tree.below (dir ++ [name]) = filesView (files ++ [(file, content)]))
    (hnew : file ∉ files.map Prod.fst) :
    (∃ after, tree.unlinkInside cwd path [file] = .ok after ∧
      after.below (dir ++ [name]) = filesView files ∧ after.Sound ∧
      ChangesOn (dir ++ [name]) tree after) ∨
    (∃ fault, tree.unlinkInside cwd path [file] = .error fault ∧ ¬ Fits path name) := by
  have hget : tree.get? (dir ++ [name]) = some .directory := get?_of_below hbelow
  have hlast : tree.get? (dir ++ [name] ++ [file]) = some (.file content) := by
    rw [get?_append_of_below hbelow, filesView, lookup_concat_self hnew]
    rfl
  rw [unlinkInside, if_neg (List.cons_ne_nil _ _)]
  by_cases hfit : Fits path name
  · refine .inl ⟨tree.erase (dir ++ [name] ++ [file]), ?_, below_erase_file (by simp) hbelow hnew,
      hsound.erase fun other => ?_, changesOn_erase (List.prefix_append _ _)⟩
    · rw [h.seekInside_eq hfit hget]
      simp only [bind, Except.bind, hlast]
      rfl
    · exact hsound.get?_append_eq_none (by rw [hlast]; simp) (by simp)
  · exact .inr ⟨_, by rw [h.seekInside_of_not_fits hfit [file]]; rfl, hfit⟩

omit hshort hfile in
theorem Names.removeDirectory_empty (hbelow : tree.below (dir ++ [name]) = filesView []) :
    (∃ after, tree.removeDirectory cwd path = .ok after ∧ after.below (dir ++ [name]) = noView ∧
      after.Sound ∧ ChangesOn (dir ++ [name]) tree after) ∨
    (∃ fault, tree.removeDirectory cwd path = .error fault ∧ ¬ Fits path name) := by
  have hget : tree.get? (dir ++ [name]) = some .directory := get?_of_below hbelow
  have hbare : ∀ file, tree.get? (dir ++ [name] ++ [file]) = none := fun file => by
    rw [get?_append_of_below hbelow]
    rfl
  by_cases hfit : Fits path name
  · exact .inl ⟨_, h.removeDirectory_of_bare hfit hget ((isBare_iff _ _).2 hbare),
      below_erase_directory (by simp) hbelow, hsound.erase hbare, changesOn_erase (List.prefix_refl _)⟩
  · exact .inr ⟨_, h.removeDirectory_of_not_fits hfit, hfit⟩

end Folder

end DirLock.Disk.Tree
