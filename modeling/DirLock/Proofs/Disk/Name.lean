import DirLock.Disk.Walk
import Mathlib.Tactic.SplitIfs

/-!
# Names along a path

A path that is one plain name, appended to another path, adds that name to the names along the path
and changes nothing else about where the path leads.
-/

namespace DirLock.Disk.Path

/-- The bytes are a single name that stands for itself in every directory. -/
structure IsName (name : Name) : Prop where
  ne_nil : name ≠ []
  no_slash : slash ∉ name
  no_zero : 0 ∉ name
  ne_dot : name ≠ dot
  ne_dotDot : name ≠ dotDot

theorem pieces_append_slash (front back : List UInt8) :
    pieces (front ++ slash :: back) = pieces front ++ pieces back := by
  induction front with
  | nil => simp [pieces]
  | cons b front ih =>
    by_cases hb : b = slash
    · simp [pieces, hb, ih]
    · rw [List.cons_append, pieces, pieces, if_neg hb, if_neg hb, ih]
      cases hp : pieces front with
      | nil => exact absurd hp (pieces_ne_nil front)
      | cons piece more => rfl

theorem pieces_of_no_slash {bytes : List UInt8} (h : slash ∉ bytes) : pieces bytes = [bytes] := by
  induction bytes with
  | nil => rfl
  | cons b bytes ih =>
    rw [List.mem_cons, not_or] at h
    rw [pieces, if_neg (Ne.symm h.1), ih h.2]

theorem names_of_isName {name : Name} (h : IsName name) : names ⟨name⟩ = [name] := by
  simp [names, pieces_of_no_slash h.no_slash, h.ne_nil]

theorem names_append_slash (front back : List UInt8) :
    names ⟨front ++ slash :: back⟩ = names ⟨front⟩ ++ names ⟨back⟩ := by
  simp [names, pieces_append_slash]

theorem isAbsolute_of_isName {name : Name} (h : IsName name) : isAbsolute ⟨name⟩ = false := by
  cases name with
  | nil => rfl
  | cons b rest =>
    have hb : b ≠ slash := fun heq => h.no_slash (heq ▸ List.mem_cons_self)
    simp [isAbsolute, hb]

theorem endsInSlash_iff (path : Path) :
    path.endsInSlash = true ↔ ∃ front, path.bytes = front ++ [slash] := by
  rw [endsInSlash, beq_iff_eq, List.getLast?_eq_some_iff]

theorem join_cases {name : Name} (h : IsName name) (base : Path) :
    (base = ⟨[]⟩ ∧ base.join ⟨name⟩ = ⟨name⟩) ∨
      (∃ front, base = ⟨front ++ [slash]⟩ ∧ base.join ⟨name⟩ = ⟨front ++ slash :: name⟩) ∨
      (base.bytes ≠ [] ∧ base.join ⟨name⟩ = ⟨base.bytes ++ slash :: name⟩) := by
  obtain ⟨bytes⟩ := base
  rw [join, if_neg (by simp [isAbsolute_of_isName h])]
  split_ifs with hbase
  · rw [Bool.or_eq_true, endsInSlash_iff] at hbase
    rcases hbase with hempty | ⟨front, hfront⟩
    · have : bytes = [] := List.isEmpty_iff.1 hempty
      subst this
      exact .inl ⟨rfl, rfl⟩
    · have : bytes = front ++ [slash] := hfront
      subst this
      exact .inr (.inl ⟨front, rfl, by simp⟩)
  · rw [Bool.or_eq_true, not_or] at hbase
    exact .inr (.inr ⟨fun hnil => hbase.1 (List.isEmpty_iff.2 hnil), rfl⟩)

theorem names_join {name : Name} (h : IsName name) (base : Path) :
    (base.join ⟨name⟩).names = base.names ++ [name] := by
  have hname := names_of_isName h
  rcases join_cases h base with ⟨rfl, heq⟩ | ⟨front, rfl, heq⟩ | ⟨-, heq⟩
  · rw [heq, hname]
    rfl
  · rw [heq, names_append_slash, names_append_slash, hname]
    simp [names, pieces]
  · rw [heq, names_append_slash, hname]

theorem start_join {name : Name} (h : IsName name) (base : Path) (cwd : Place) :
    (base.join ⟨name⟩).start cwd = base.start cwd := by
  suffices hsame : (base.join ⟨name⟩).isAbsolute = base.isAbsolute by rw [start, start, hsame]
  rcases join_cases h base with ⟨rfl, heq⟩ | ⟨front, rfl, heq⟩ | ⟨hne, heq⟩
  · rw [heq, isAbsolute_of_isName h]
    rfl
  · rw [heq]
    cases front <;> rfl
  · rw [heq]
    obtain ⟨bytes⟩ := base
    cases bytes with
    | nil => exact absurd rfl hne
    | cons b front => rfl

theorem endsInSlash_join {name : Name} (h : IsName name) (base : Path) :
    (base.join ⟨name⟩).endsInSlash = false := by
  have hlast : ∀ front : List UInt8, endsInSlash ⟨front ++ name⟩ = false := by
    intro front
    rw [← Bool.not_eq_true, endsInSlash_iff]
    rintro ⟨other, heq⟩
    obtain ⟨init, b, rfl⟩ : ∃ init b, name = init ++ [b] :=
      ⟨_, _, (List.dropLast_concat_getLast h.ne_nil).symm⟩
    have hb := congrArg List.getLast? heq
    simp only [← List.append_assoc, List.getLast?_concat, Option.some.injEq] at hb
    exact h.no_slash (by simp [hb])
  rcases join_cases h base with ⟨-, heq⟩ | ⟨front, -, heq⟩ | ⟨-, heq⟩
  · rw [heq]
    exact hlast []
  · rw [heq]
    simpa using hlast (front ++ [slash])
  · rw [heq]
    simpa using hlast (base.bytes ++ [slash])

/-! ## Paths that are taken -/

theorem check_of_short {path : Path} (hne : path.bytes ≠ []) (hzero : 0 ∉ path.bytes)
    (hlen : path.bytes.length < lengthLimit) : path.check = .ok () := by
  have hhas : path.hasZero = false := by
    rw [← Bool.not_eq_true, hasZero, List.contains_iff_mem]
    exact hzero
  have hempty : path.isEmpty = false := by
    rw [← Bool.not_eq_true, isEmpty, List.isEmpty_iff]
    exact hne
  rw [check, hhas, hempty, if_neg Bool.false_ne_true, if_neg Bool.false_ne_true,
    if_neg (Nat.not_le.2 hlen)]

theorem bytes_join_ne_nil {name : Name} (h : IsName name) (base : Path) :
    (base.join ⟨name⟩).bytes ≠ [] := by
  rcases join_cases h base with ⟨-, heq⟩ | ⟨front, -, heq⟩ | ⟨-, heq⟩
  · rw [heq]
    exact h.ne_nil
  · rw [heq]
    simp
  · rw [heq]
    simp

theorem zero_not_mem_join {name : Name} (h : IsName name) {base : Path} (hbase : 0 ∉ base.bytes) :
    0 ∉ (base.join ⟨name⟩).bytes := by
  have hslash : (0 : UInt8) ≠ slash := by decide
  rcases join_cases h base with ⟨-, heq⟩ | ⟨front, rfl, heq⟩ | ⟨-, heq⟩
  · rw [heq]
    exact h.no_zero
  · rw [heq]
    have hfront : 0 ∉ front := fun hmem => hbase (List.mem_append_left _ hmem)
    simp [hfront, hslash, h.no_zero]
  · rw [heq]
    simp [hbase, hslash, h.no_zero]

theorem length_join_le {name : Name} (h : IsName name) (base : Path) :
    (base.join ⟨name⟩).bytes.length ≤ base.bytes.length + 1 + name.length := by
  rcases join_cases h base with ⟨-, heq⟩ | ⟨front, rfl, heq⟩ | ⟨-, heq⟩
  · rw [heq]
    dsimp only
    omega
  · rw [heq]
    simp only [List.length_append, List.length_cons, List.length_nil]
    omega
  · rw [heq, List.length_append, List.length_cons]
    omega

theorem short_of_check {path : Path} (h : path.check = .ok ()) :
    0 ∉ path.bytes ∧ path.bytes.length < lengthLimit := by
  rw [check] at h
  split_ifs at h with hzero hempty hlong
  exact ⟨fun hmem => hzero (List.contains_iff_mem.2 hmem), Nat.not_le.1 hlong⟩

theorem bytes_prefix_join {name : Name} (h : IsName name) (base : Path) :
    base.bytes <+: (base.join ⟨name⟩).bytes := by
  rcases join_cases h base with ⟨rfl, -⟩ | ⟨front, rfl, heq⟩ | ⟨-, heq⟩
  · exact List.nil_prefix
  · rw [heq]
    exact ⟨name, by simp⟩
  · rw [heq]
    exact List.prefix_append _ _

theorem check_of_join {name : Name} (h : IsName name) {base : Path} (hne : base.bytes ≠ [])
    (hcheck : (base.join ⟨name⟩).check = .ok ()) : base.check = .ok () := by
  have hpart := bytes_prefix_join h base
  obtain ⟨hzero, hshort⟩ := short_of_check hcheck
  exact check_of_short hne (fun hmem => hzero (hpart.subset hmem)) (Nat.lt_of_le_of_lt hpart.length_le hshort)

end DirLock.Disk.Path
