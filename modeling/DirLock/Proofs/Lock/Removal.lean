import DirLock.Machine
import DirLock.Proofs.Disk.Hollow
import DirLock.Proofs.Routine.Run
import DirLock.Routine.Directories

/-!
# Removing a directory alone

A directory that nobody else works in is removed with all it holds, whatever that is, as long as requests
take its path and the way to it does not lead through what is inside.
-/

namespace DirLock

open Disk (Tree Place Path Name Entry Fault)
open Disk.Tree (Fits)
open Routine (Yields yields_request)

variable {supply : Supply} {programs : Machine.Programs} {α : Type} {machine : Machine} {dir : Place}
  {path : Path} {name : Name}

theorem yields_of_answer {r : Request} {next : r.Reply → Routine α} {post : α → Machine → Prop}
    {reply : r.Reply} {after : Machine}
    (hanswer : Machine.answer supply programs r machine = (reply, after))
    (h : Yields (Machine.answer supply programs) (next reply) after post) :
    Yields (Machine.answer supply programs) (Routine.request r >>= next) machine post := by
  apply yields_request
  rw [hanswer]
  exact h

theorem change_ok {result : Except Fault Tree} {tree : Tree} (h : result = .ok tree) :
    machine.change result = (.ok (), { machine with tree := tree }) := by rw [h]; rfl

theorem change_error {result : Except Fault Tree} {fault : Fault} (h : result = .error fault) :
    machine.change result = (.error fault, machine) := by rw [h]; rfl

theorem yields_removeEach_under (hsound : machine.tree.Sound)
    (hnames : (machine.tree.hollow (dir ++ [name])).Names machine.directory path dir name)
    (hfit : Fits path name)
    (hdirectory : ∀ entry, machine.tree.get? (dir ++ [name]) = some entry → entry = .directory) :
    Yields (Machine.answer supply programs)
      (Routine.removeEach (Tree.removalsOf path (dir ++ [name]) (machine.tree.under (dir ++ [name]))))
      machine fun result after =>
        result = .ok () ∧ after = { machine with tree := machine.tree.prune (dir ++ [name]) } := by
  generalize hunder : machine.tree.under (dir ++ [name]) = es
  induction es using List.reverseRecOn generalizing machine with
  | nil =>
    refine ⟨rfl, ?_⟩
    show machine = _
    rw [Tree.prune_of_under_eq_nil hunder]
  | append_singleton front last ih =>
    obtain ⟨hroot, hpre, hget⟩ := hsound.mem_under_iff.1 (Tree.mem_under_last hunder)
    have htop : machine.tree.get? (dir ++ [name]) = some .directory := by
      by_cases heq : dir ++ [name] = last.1
      · rw [heq, hget, hdirectory last.2 (by rw [heq, hget])]
      · exact hsound.get?_of_prefix hpre heq hget
    rw [Tree.removalsOf_concat]
    have hanswer (step : Tree.Removal) (hstep : step = if last.2 = .directory
          then .removeDirectory path (last.1.drop (dir ++ [name]).length)
          else .unlink path (last.1.drop (dir ++ [name]).length)) :
        Machine.answer supply programs (.remove step) machine =
          (.ok (), { machine with tree := machine.tree.erase last.1 }) := by
      split_ifs at hstep with hlast
      · rw [hstep]
        exact change_ok (Tree.removeInside_last hsound hnames hfit htop hunder hlast)
      · rw [hstep]
        exact change_ok (Tree.unlinkInside_last hsound hnames hfit htop hunder hlast)
    refine yields_of_answer (hanswer _ rfl) ?_
    have hrest := @ih { machine with tree := machine.tree.erase last.1 }
      (Tree.sound_erase_last hsound hunder) (by rwa [Tree.hollow_erase hpre]) ?_
      (Tree.under_erase_last hsound hunder)
    · rwa [Tree.prune_erase hpre] at hrest
    · intro entry hentry
      rw [Tree.get?_erase _ (by simp)] at hentry
      split_ifs at hentry
      exact hdirectory entry hentry

theorem yields_removeTree_directory (hsound : machine.tree.Sound)
    (hnames : (machine.tree.hollow (dir ++ [name])).Names machine.directory path dir name)
    (hfit : Fits path name) (hdirectory : machine.tree.get? (dir ++ [name]) = some .directory) :
    Yields (Machine.answer supply programs) (Routine.removeTree path) machine fun result after =>
      result = .ok () ∧ after = { machine with tree := machine.tree.prune (dir ++ [name]) } := by
  have hnow := hnames.mono (Tree.hollow_within (by simp) hdirectory)
  refine yields_of_answer (congrArg (·, machine) (hnow.removals_of_directory hfit hdirectory)) ?_
  exact yields_removeEach_under hsound hnames hfit fun entry hentry =>
    Option.some.inj (hentry.symm.trans hdirectory)

end DirLock
